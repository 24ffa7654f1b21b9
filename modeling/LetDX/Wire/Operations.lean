import LetDX.Wire.Conversation

/-! # Operations of the client on its connection

Dialing, writing, reading and closing keep the invariant of the service, and
each leads from one state of the connection to the next.
-/

namespace LetDX.Wire

open LetDB

variable {service : Service} {connection : Nat} {link : Link}

theorem Service.setLink_current (service : Service) (connection : Nat) (link : Link) :
    (service.setLink connection link).current =
      if connection = service.accepted - 1 then link else service.current := by
  rw [current, setLink]
  dsimp only
  rw [Function.update_apply]
  split
  next heq => rw [if_pos heq.symm]
  next hne => rw [if_neg fun heq => hne heq.symm]; rfl

theorem Service.live_congr {service service' : Service} (hpoint : service'.point = service.point)
    (hworld : service'.world = service.world)
    (hwritten : service'.current.written = service.current.written) :
    service'.live = service.live := by
  unfold live unread author
  rw [hpoint, hworld, hwritten]

theorem Front.congr {service service' : Service} {point : LetRun} (hfront : Front service point)
    (hworld : service'.world = service.world)
    (hbytes : service'.current.bytes = service.current.bytes) : Front service' point := by
  cases point with
  | reading | processing | responding =>
      unfold Front at hfront ⊢
      rwa [hworld, hbytes]
  | accepting | finished => trivial

/-- Another connection is dialed. -/
theorem Sound.dial (hsound : Sound service) :
    Sound { service with dialed := service.dialed + 1 } ∧
      Waiting service.dialed [] { service with dialed := service.dialed + 1 } := by
  refine ⟨⟨hsound.agrees, Nat.le_succ_of_le hsound.accepted_le, hsound.accepted_pos, hsound.sent,
    ?_, hsound.waiting, ?_, hsound.complete, hsound.once⟩, rfl, hsound.accepted_le, ?_⟩
  · exact hsound.front.congr rfl rfl
  · intro connection hconnection
    exact hsound.undialed connection (Nat.le_of_succ_le hconnection)
  · change (service.links service.dialed).bytes = []
    rw [hsound.undialed _ (Nat.le_refl _)]
    rfl

/-- Another link keeps the invariant if what was written to it may stand where
it then stands, and if it gives no call a second record. -/
theorem Sound.setLink (hsound : Sound service) {repeated : List Nat} {service' : Service}
    (hservice' : service' = { service.setLink connection link with repeated })
    (hdialed : connection < service.dialed) (hsent : link.sent = (service.links connection).sent)
    (hfront : Front service' service.point)
    (hwaiting : service.accepted ≤ connection →
      link.bytes <+: requestBytes .countDatabase ∧ link.taken = 0)
    (honce : ∀ call, call ∉ repeated → service'.tally call ≤ 1) : Sound service' := by
  subst hservice'
  refine ⟨hsound.agrees, hsound.accepted_le, hsound.accepted_pos, ?_, hfront, ?_, ?_,
    hsound.complete, honce⟩
  · intro hserving
    refine (?_ : _ = service.current.sent).trans (hsound.sent hserving)
    change (service.setLink connection link).current.sent = _
    rw [service.setLink_current]
    split
    next heq =>
      subst heq
      exact hsent
    · rfl
  · intro other hother
    change (Function.update service.links connection link other).bytes <+: _ ∧
      (Function.update service.links connection link other).sent = [] ∧
      (Function.update service.links connection link other).taken = 0
    rw [Function.update_apply]
    split
    next heq =>
      subst heq
      obtain ⟨hbytes, htaken⟩ := hwaiting hother
      exact ⟨hbytes, hsent.trans (hsound.waiting other hother).2.1, htaken⟩
    · exact hsound.waiting other hother
  · intro other hother
    change Function.update service.links connection link other = {}
    have hne : other ≠ connection := Nat.ne_of_gt (hdialed.trans_le hother)
    rw [Function.update_of_ne hne]
    exact hsound.undialed other hother

/-- The same with nothing more written. -/
theorem Sound.setLink_of_written (hsound : Sound service) (hdialed : connection < service.dialed)
    (hwritten : link.written = (service.links connection).written)
    (hsent : link.sent = (service.links connection).sent)
    (htaken : service.accepted ≤ connection → link.taken = 0) :
    Sound (service.setLink connection link) := by
  have hcurrent : (service.setLink connection link).current.written = service.current.written := by
    rw [service.setLink_current]
    split
    next heq =>
      subst heq
      exact hwritten
    · rfl
  have hlive : (service.setLink connection link).live = service.live :=
    Service.live_congr rfl rfl hcurrent
  refine hsound.setLink rfl hdialed hsent ?_ ?_ ?_
  · exact hsound.front.congr rfl (congrArg (List.map Prod.fst) hcurrent)
  · intro hconnection
    rw [Link.bytes, hwritten]
    exact ⟨(hsound.waiting connection hconnection).1, htaken hconnection⟩
  · refine hsound.tally_kept ?_ (.inl hlive)
    rfl

theorem Service.bytes_written (service : Service) (connection call : Nat) (bytes : List U8) :
    (service.written connection call bytes).bytes =
      (service.links connection).bytes ++ bytes := by
  simp [written, Link.bytes, Function.comp_def]

variable {around : Surroundings} {bytes : List U8}

/-- The handshake is written while the connection waits. -/
theorem Waiting.write (hwaiting : Waiting connection [] around.service)
    (hsound : Sound around.service) (hwithin : bytes <+: requestBytes .countDatabase) :
    Sound (around.write connection bytes).service ∧
      Waiting connection bytes (around.write connection bytes).service := by
  have hhandshake : ¬carriesOperation bytes := by
    intro hcarries
    nomatch (carriesOperation_of_within hwithin hcarries).2
  have hbytes : (around.service.written connection around.call bytes).bytes = bytes := by
    rw [Service.bytes_written, hwaiting.bytes, List.nil_append]
  have hcurrent (hserving : ¬around.service.point.Ended) :
      (around.write connection bytes).service.current = around.service.current := by
    have hpositive := hsound.accepted_pos hserving
    have haccepted := hwaiting.accepted
    refine (around.service.setLink_current connection _).trans (if_neg ?_)
    omega
  refine ⟨hsound.setLink rfl ?_ rfl ?_ ?_ ?_, hwaiting.dialed, hwaiting.accepted, ?_⟩
  · exact hwaiting.dialed ▸ Nat.lt_succ_self connection
  · by_cases hended : around.service.point.Ended
    · exact .of_ended hended
    · exact hsound.front.congr rfl (congrArg Link.bytes (hcurrent hended))
  · intro hconnection
    rw [hbytes]
    exact ⟨hwithin, (hsound.waiting connection hconnection).2.2⟩
  · intro call hcall
    rw [if_neg fun h => hhandshake h.1] at hcall
    refine hsound.tally_kept ?_ ?_ call hcall
    · rfl
    · by_cases hended : around.service.point.Ended
      · exact .inr (Service.live_of_ended hended)
      · exact .inl (Service.live_congr rfl rfl (congrArg Link.written (hcurrent hended)))
  · refine Eq.trans (congrArg Link.bytes ?_) hbytes
    exact Function.update_self ..

theorem Quiet.current_eq {transactions : U64} (hquiet : Quiet connection transactions service) :
    service.current = service.links connection := by
  rw [Service.current, hquiet.accepted]
  rfl

theorem Quiet.write_current {before : U64} (hquiet : Quiet connection before around.service)
    (bytes : List U8) : (around.write connection bytes).service.current =
      around.service.written connection around.call bytes := by
  refine (around.service.setLink_current connection _).trans (if_pos ?_)
  rw [hquiet.accepted]
  rfl

/-- Only a mutating request becomes live, and it counts against the call unless
the call has a record already. -/
theorem Quiet.write_once {before : U64} (hquiet : Quiet connection before around.service)
    (hsound : Sound around.service) (call : Nat)
    (hcall : call ∉ (around.write connection bytes).service.repeated) :
    (around.write connection bytes).service.tally call ≤ 1 := by
  have hnot : call ∉ around.service.repeated := by
    intro hmem
    apply hcall
    change call ∈ ite _ _ _
    split
    · exact List.mem_cons_of_mem _ hmem
    · exact hmem
  have hbefore := hsound.once call hnot
  have hnone (hlive : (around.write connection bytes).service.live = none) :
      (around.write connection bytes).service.tally call ≤ 1 := by
    refine hsound.tally_kept ?_ (.inr hlive) call hnot
    rfl
  -- A server that is reading makes the call of the new bytes the live one.
  rcases hquiet.idle with hended | ⟨context, hpoint, hreceived⟩
  · exact hnone (Service.live_of_ended hended)
  · have hbytes : (around.write connection bytes).service.current.bytes =
        (around.write connection bytes).service.world.received ++ bytes := by
      rw [hquiet.write_current, Service.bytes_written, ← hquiet.current_eq, hreceived]
      rfl
    have hlive : (around.write connection bytes).service.live =
        if carriesOperation bytes then
          (around.write connection bytes).service.current.written.getLast?.map Prod.snd
        else none := Service.live_reading hpoint hbytes
    by_cases hcarries : carriesOperation bytes
    · have hlast : (around.write connection bytes).service.current.written.getLast?.map Prod.snd =
          some around.call := by
        rw [hquiet.write_current, Service.written, List.getLast?_append, List.getLast?_map]
        cases hbyte : bytes.getLast? with
        | none =>
            rw [List.getLast?_eq_none_iff.mp hbyte] at hcarries
            nomatch hcarries
        | some byte => rfl
      rw [if_pos hcarries, hlast] at hlive
      rw [Service.tally, hlive]
      simp only [Option.some.injEq]
      split
      next heq =>
        have hfirst : call ∉ around.service.records := by
          intro hmem
          apply hcall
          change call ∈ ite _ _ _
          rw [if_pos ⟨hcarries, heq ▸ hmem⟩, heq]
          exact List.mem_cons_self ..
        exact Nat.le_of_eq (congrArg (· + 1) (List.count_eq_zero.mpr hfirst))
      · exact (around.service.count_le_tally call).trans hbefore
    · exact hnone (hlive.trans (if_neg hcarries))

/-- A request is written while nothing is under way. -/
theorem Quiet.write {before : U64} {request : NetworkRequest}
    (hquiet : Quiet connection before around.service) (hsound : Sound around.service)
    (hwithin : bytes <+: requestBytes request) :
    Sound (around.write connection bytes).service ∧
      (bytes = requestBytes request →
        Await connection request before (around.write connection bytes).service) := by
  have hlink := hquiet.current_eq
  have hcurrent := hquiet.write_current bytes
  have hbytes : (around.write connection bytes).service.current.bytes =
      around.service.current.bytes ++ bytes := by
    rw [hcurrent, Service.bytes_written, hlink]
  have htaken : (around.write connection bytes).service.current.taken =
      (around.write connection bytes).service.current.sent.length := by
    rw [hcurrent, Service.written, ← hlink]
    exact hquiet.taken
  refine ⟨hsound.setLink rfl ?_ rfl ?_ ?_ ?_, ?_⟩
  · exact hquiet.dialed ▸ Nat.lt_succ_self connection
  · rcases hquiet.idle with hended | ⟨context, hpoint, hreceived⟩
    · exact .of_ended hended
    · rw [hpoint]
      exact ⟨request, bytes, hwithin, hbytes.trans (hreceived ▸ rfl)⟩
  · intro hconnection
    rw [hquiet.accepted] at hconnection
    exact (Nat.not_succ_le_self _ hconnection).elim
  · exact hquiet.write_once hsound
  · rintro rfl
    refine ⟨hquiet.dialed, hquiet.accepted, ?_⟩
    rcases hquiet.idle with hended | ⟨context, hpoint, hreceived⟩
    · refine .lost (.inl hended) ?_
      rw [Link.pending_eq_nil htaken]
      exact List.not_mem_nil
    · refine .unread hpoint (hbytes.trans (hreceived ▸ rfl)) htaken ?_
      have htransactions := hquiet.transactions
      rwa [hpoint] at htransactions

/-- The line that is read is the reply, and then nothing is under way. -/
theorem Await.read {before : U64} {request : NetworkRequest} {body : List U8}
    (hawait : Await connection request before around.service) (hsound : Sound around.service)
    (hline : body ++ [asciiNewline] <+: (around.service.links connection).pending) :
    ∃ response transactions, body ++ [asciiNewline] = response.bytes ∧
      Answers request before response transactions ∧
      Sound (around.read connection (body ++ [asciiNewline])).service ∧
      Quiet connection transactions (around.read connection (body ++ [asciiNewline])).service := by
  have hlink : around.service.current = around.service.links connection := by
    rw [Service.current, hawait.accepted]
    rfl
  rw [← hlink] at hline
  have hnothing (taken : around.service.current.taken = around.service.current.sent.length) :
      False := by
    rw [Link.pending_eq_nil taken] at hline
    simp at hline
  -- There is a line to read only once the reply was sent whole.
  cases hawait.stage with
  | unread point bytes taken => exact (hnothing taken).elim
  | processing point taken => exact (hnothing taken).elim
  | responding point taken => exact (hnothing taken).elim
  | lost idle newline => exact (newline (hline.subset (by simp))).elim
  | @replied response idle pending answers =>
      rw [pending] at hline
      have hwhole : body ++ [asciiNewline] = response.bytes := by
        rcases eq_bytes_or_newline_notMem hline with hwhole | hno
        · exact hwhole
        · exact (hno (by simp)).elim
      have hlength : around.service.current.taken + response.bytes.length =
          around.service.current.sent.length := by
        have hpending := congrArg List.length pending
        have hpositive := congrArg List.length hwhole
        rw [Link.pending, List.length_drop] at hpending
        rw [List.length_append, List.length_singleton] at hpositive
        omega
      have hcurrent : (around.read connection (body ++ [asciiNewline])).service.current =
          { around.service.current with
            taken := around.service.current.taken + response.bytes.length } := by
        rw [hlink, ← hwhole]
        refine (around.service.setLink_current connection _).trans (if_pos ?_)
        rw [hawait.accepted]
        rfl
      refine ⟨response, _, hwhole, answers, ?_, hawait.dialed, hawait.accepted, ?_, ?_, rfl⟩
      · refine hsound.setLink_of_written ?_ rfl rfl ?_
        · exact hawait.dialed ▸ Nat.lt_succ_self connection
        · intro hconnection
          rw [hawait.accepted] at hconnection
          exact (Nat.not_succ_le_self _ hconnection).elim
      · rw [hcurrent]
        exact hlength
      · rcases idle with hended | ⟨context, hpoint, hreceived⟩
        · exact .inl hended
        · refine .inr ⟨context, hpoint, ?_⟩
          rw [hcurrent]
          exact hreceived

end LetDX.Wire
