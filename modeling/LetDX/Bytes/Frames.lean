import Mathlib.Data.List.TakeDrop
import Mathlib.Tactic.Ring

/-! # Logs of records of one size

A log is the concatenation of its records, all of one size, possibly followed
by a tail too short to be a record. Cutting a log at any point leaves a log of
a prefix of its records.
-/

namespace LetDX.Bytes

variable {α : Type} {size : Nat}

/-- Every record has the size of the format. -/
def Framed (size : Nat) (frames : List (List α)) : Prop :=
  ∀ frame ∈ frames, frame.length = size

namespace Framed

theorem nil : Framed size ([] : List (List α)) := by
  simp [Framed]

theorem cons_iff {frame : List α} {frames : List (List α)} :
    Framed size (frame :: frames) ↔ frame.length = size ∧ Framed size frames := by
  simp [Framed]

theorem append {first second : List (List α)} (hfirst : Framed size first)
    (hsecond : Framed size second) : Framed size (first ++ second) := by
  intro frame hframe
  rcases List.mem_append.mp hframe with hmem | hmem
  · exact hfirst frame hmem
  · exact hsecond frame hmem

theorem length_flatten {frames : List (List α)} (hframed : Framed size frames) :
    frames.flatten.length = frames.length * size := by
  induction frames with
  | nil => simp
  | cons frame frames ih =>
      obtain ⟨hlength, hrest⟩ := cons_iff.mp hframed
      rw [List.flatten_cons, List.length_append, hlength, ih hrest, List.length_cons]
      ring

/-- Cutting a log keeps a prefix of its records, at least those that lie wholly
before the cut, and a tail shorter than a record. -/
theorem take_log {frames : List (List α)} (hframed : Framed size frames) {tail : List α}
    (htail : tail.length < size) (cut : Nat) :
    ∃ kept rest, (frames.flatten ++ tail).take cut = (frames.take kept).flatten ++ rest ∧
      rest.length < size ∧ kept ≤ frames.length ∧
      ∀ whole ≤ frames.length, whole * size ≤ cut → whole ≤ kept := by
  induction frames generalizing cut with
  | nil =>
      refine ⟨0, tail.take cut, by simp, ?_, le_rfl, fun whole hwhole _ => hwhole⟩
      rw [List.length_take]
      omega
  | cons frame frames ih =>
      obtain ⟨hlength, hrest⟩ := cons_iff.mp hframed
      -- The cut is inside the first record, or it is a cut of the others.
      by_cases hcut : cut < size
      · refine ⟨0, frame.take cut, ?_, ?_, Nat.zero_le _, ?_⟩
        · rw [List.flatten_cons, List.append_assoc, List.take_append_of_le_length (by omega)]
          simp
        · rw [List.length_take]
          omega
        · intro whole _ hwhole
          by_contra hpos
          have hone : 1 * size ≤ whole * size := Nat.mul_le_mul_right _ (by omega)
          omega
      · obtain ⟨kept, rest, heq, hshort, hle, hwhole⟩ := ih hrest (cut - size)
        refine ⟨kept + 1, rest, ?_, hshort, by simpa using hle, ?_⟩
        · rw [List.flatten_cons, List.append_assoc, List.take_append, hlength, heq,
            List.take_of_length_le (by omega), List.take_succ_cons, List.flatten_cons,
            List.append_assoc]
        · intro whole hbound hcovered
          cases whole with
          | zero => exact Nat.zero_le _
          | succ whole =>
              rw [Nat.succ_mul] at hcovered
              have := hwhole whole (by simpa using hbound) (by omega)
              omega

end Framed

/-! ## The longest run of frames -/

/-- These frames are the longest run of frames of a kind at the start of the content. -/
structure Longest (kind : List α → Prop) (frames : List (List α)) (content : List α) : Prop where
  each : ∀ frame ∈ frames, kind frame
  within : frames.flatten <+: content
  longest : ∀ frames' : List (List α), (∀ frame ∈ frames', kind frame) →
    frames'.flatten <+: content → frames'.flatten <+: frames.flatten

section Longest

variable {kind : List α → Prop} {frames : List (List α)} {content rest : List α}

theorem take_eq_of_prefix {frame : List α} (hsize : frame.length = size)
    (hstarts : frame <+: content) : content.take size = frame := by
  rw [← hsize]
  exact (List.prefix_iff_eq_take.mp hstarts).symm

/-- Frames of one size are compared one by one. -/
theorem prefix_of_stuck (hkind : ∀ frame, kind frame → frame.length = size)
    (heach : ∀ frame ∈ frames, kind frame) (hstuck : ¬kind (rest.take size))
    {frames' : List (List α)} (heach' : ∀ frame ∈ frames', kind frame)
    (hwithin : frames'.flatten <+: frames.flatten ++ rest) : frames' <+: frames := by
  induction frames' generalizing frames with
  | nil => exact List.nil_prefix
  | cons frame' frames' ih =>
      obtain ⟨hframe', hrest'⟩ := List.forall_mem_cons.mp heach'
      rw [List.flatten_cons] at hwithin
      have htake := take_eq_of_prefix (hkind frame' hframe')
        ((List.prefix_append _ _).trans hwithin)
      cases frames with
      | nil =>
          rw [List.flatten_nil, List.nil_append] at htake
          exact (hstuck (htake ▸ hframe')).elim
      | cons frame frames =>
          obtain ⟨hframe, hrest⟩ := List.forall_mem_cons.mp heach
          rw [List.flatten_cons, List.append_assoc] at htake hwithin
          rw [List.take_left' (hkind frame hframe)] at htake
          subst htake
          rw [List.prefix_append_right_inj] at hwithin
          exact (List.cons_prefix_cons).mpr ⟨rfl, ih hrest hrest' hwithin⟩

/-- A run of frames is the longest when what follows does not start with one. -/
theorem longest_iff (hkind : ∀ frame, kind frame → frame.length = size) (hpos : 0 < size) :
    Longest kind frames content ↔ ∃ rest, content = frames.flatten ++ rest ∧
      (∀ frame ∈ frames, kind frame) ∧ ¬kind (rest.take size) := by
  constructor
  · rintro ⟨heach, ⟨rest, rfl⟩, hlongest⟩
    refine ⟨rest, rfl, heach, ?_⟩
    intro hmore
    have hgrown := hlongest (frames ++ [rest.take size]) (by simpa [or_imp, forall_and] using
      ⟨heach, hmore⟩) ⟨rest.drop size, by simp⟩
    have hlength := hgrown.length_le
    have hsize := hkind _ hmore
    simp only [List.flatten_append, List.flatten_singleton, List.length_append] at hlength
    omega
  · rintro ⟨rest, rfl, heach, hstuck⟩
    refine ⟨heach, List.prefix_append _ _, ?_⟩
    intro frames' heach' hwithin
    obtain ⟨more, rfl⟩ := prefix_of_stuck hkind heach hstuck heach' hwithin
    simp

/-- There is only one longest run. -/
theorem Longest.eq {frames' : List (List α)} (hkind : ∀ frame, kind frame → frame.length = size)
    (hpos : 0 < size) (hlongest : Longest kind frames content)
    (hlongest' : Longest kind frames' content) : frames = frames' := by
  obtain ⟨rest, heq, heach, hstuck⟩ := (longest_iff hkind hpos).mp hlongest
  obtain ⟨rest', heq', heach', hstuck'⟩ := (longest_iff hkind hpos).mp hlongest'
  have hforth := prefix_of_stuck hkind heach' hstuck' heach (heq' ▸ hlongest.within)
  have hback := prefix_of_stuck hkind heach hstuck heach' (heq ▸ hlongest'.within)
  exact hforth.eq_of_length_le hback.length_le

/-- Every content starts with a longest run. -/
theorem exists_longest (hkind : ∀ frame, kind frame → frame.length = size) (hpos : 0 < size)
    (content : List α) : ∃ frames, Longest kind frames content := by
  induction hlength : content.length using Nat.strongRecOn generalizing content with
  | ind length ih =>
      by_cases hfirst : kind (content.take size)
      · have hsize := hkind _ hfirst
        rw [List.length_take] at hsize
        obtain ⟨frames, hlongest⟩ := ih (content.drop size).length
          (by rw [List.length_drop]; omega) (content.drop size) rfl
        obtain ⟨rest, hrest, heach, hstuck⟩ := (longest_iff hkind hpos).mp hlongest
        refine ⟨content.take size :: frames, (longest_iff hkind hpos).mpr ⟨rest, ?_, ?_, hstuck⟩⟩
        · rw [List.flatten_cons, List.append_assoc, ← hrest, List.take_append_drop]
        · exact List.forall_mem_cons.mpr ⟨hfirst, heach⟩
      · exact ⟨[], (longest_iff hkind hpos).mpr ⟨content, rfl, by simp, hfirst⟩⟩

end Longest

end LetDX.Bytes
