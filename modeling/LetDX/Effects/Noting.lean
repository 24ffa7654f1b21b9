import LetDX.Effects.Outcomes

/-! # Machines that take notes

What has happened in a run can be spoken of if the world holds notes of it. The
program does not see them, so a run with notes is a run with something written
beside it.
-/

namespace LetDX.Effects.Machine

variable {I : Interface} {W N : Type}

/-- The machine on which a note is taken of each operation, from the choice that
was made for it and the world before it. -/
def noting (machine : Machine I W) (note : (op : I.Op) → machine.Choice op → W → N → N) :
    Machine I (W × N) where
  Choice := machine.Choice
  exec op choice world :=
    ((machine.exec op choice world.1).1, (machine.exec op choice world.1).2,
      note op choice world.1 world.2)

theorem performs_of_noting {machine : Machine I W}
    {note : (op : I.Op) → machine.Choice op → W → N → N} {op : I.Op} {answer : I.Answer op}
    {world world' : W × N}
    (hperforms : (machine.noting note).Performs op world answer world') :
    machine.Performs op world.1 answer world'.1 := by
  obtain ⟨choice, hexec⟩ := hperforms
  obtain ⟨rfl, rfl⟩ := Prod.mk.inj hexec
  exact ⟨choice, rfl⟩

end LetDX.Effects.Machine
