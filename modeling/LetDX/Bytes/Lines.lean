import Mathlib.Data.List.Basic

/-! # Streams of lines

A stream is read line by line, each of them up to the first mark that ends it.
What follows the last mark is not a line yet.
-/

namespace LetDX.Bytes

variable {α : Type} {stop : α}

/-- The stream ends where a line does. -/
inductive Whole (stop : α) : List α → Prop
  | nil : Whole stop []
  | line {body rest : List α} (ended : stop ∉ body) (whole : Whole stop rest) :
      Whole stop (body ++ stop :: rest)

namespace Whole

theorem single {body : List α} (hbody : stop ∉ body) : Whole stop (body ++ [stop]) :=
  .line hbody .nil

theorem append {stream more : List α} (hstream : Whole stop stream) (hmore : Whole stop more) :
    Whole stop (stream ++ more) := by
  induction hstream with
  | nil => exact hmore
  | line hbody _ ih =>
      rw [List.append_assoc, List.cons_append]
      exact .line hbody ih

end Whole

variable [DecidableEq α]

/-- The lines of a stream, without the marks that end them. -/
def lines (stop : α) (stream : List α) : List (List α) :=
  (stream.splitOn stop).dropLast

theorem lines_of_notMem {stream : List α} (hnone : stop ∉ stream) : lines stop stream = [] := by
  rw [lines, List.splitOn_eq_singleton hnone, List.dropLast_singleton]

theorem lines_cons {body : List α} (hbody : stop ∉ body) (rest : List α) :
    lines stop (body ++ stop :: rest) = body :: lines stop rest := by
  rw [lines, List.splitOn_append_cons_self_of_not_mem hbody,
    List.dropLast_cons_of_ne_nil (List.splitOn_ne_nil stop rest), lines]

/-- A stream is unfinished, or it is a line and a stream after it. -/
theorem stream_induction (stop : α) {motive : List α → Prop}
    (unfinished : ∀ stream, stop ∉ stream → motive stream)
    (line : ∀ body rest, stop ∉ body → motive rest → motive (body ++ stop :: rest))
    (stream : List α) : motive stream := by
  induction hlength : stream.length using Nat.strongRecOn generalizing stream with
  | ind length ih =>
      by_cases hmem : stop ∈ stream
      · obtain ⟨body, rest, rfl, hbody⟩ := List.eq_append_cons_of_mem hmem
        apply line body rest hbody
        apply ih rest.length _ rest rfl
        rw [← hlength, List.length_append, List.length_cons]
        omega
      · exact unfinished stream hmem

/-- What follows leaves the lines there are. -/
theorem lines_prefix (stream more : List α) :
    lines stop stream <+: lines stop (stream ++ more) := by
  induction stream using stream_induction stop with
  | unfinished stream hnone =>
      rw [lines_of_notMem hnone]
      exact List.nil_prefix
  | line body rest hbody ih =>
      rw [List.append_assoc, List.cons_append, lines_cons hbody, lines_cons hbody]
      exact List.cons_prefix_cons.mpr ⟨rfl, ih⟩

theorem head_lines {stream line : List α} (hline : (lines stop stream).head? = some line) :
    stop ∉ line ∧ ∃ rest, stream = line ++ stop :: rest := by
  induction stream using stream_induction stop with
  | unfinished stream hnone => simp [lines_of_notMem hnone] at hline
  | line body rest hbody ih =>
      rw [lines_cons hbody, List.head?_cons] at hline
      obtain rfl := Option.some.inj hline
      exact ⟨hbody, rest, rfl⟩

namespace Whole

variable {stream : List α}

/-- After a whole stream a new line begins. -/
theorem lines_append (hstream : Whole stop stream) (more : List α) :
    lines stop (stream ++ more) = lines stop stream ++ lines stop more := by
  induction hstream with
  | nil => simp [lines]
  | line hbody _ ih =>
      rw [List.append_assoc, List.cons_append, lines_cons hbody, lines_cons hbody, ih,
        List.cons_append]

theorem length_lines_concat {body : List α} (hstream : Whole stop stream) (hbody : stop ∉ body) :
    (lines stop (stream ++ (body ++ [stop]))).length = (lines stop stream).length + 1 := by
  rw [hstream.lines_append, lines_cons hbody, lines_of_notMem List.not_mem_nil,
    List.length_append, List.length_singleton]

end Whole

end LetDX.Bytes
