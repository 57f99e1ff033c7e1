import Coop.Interrupt.Guard

/-!
# Interrupt guards on the bench

Guards are numbered in the order in which they were created.  They may be
dropped in any order, each at most once, and the flag may also be changed
directly.
-/

namespace Coop
namespace Bench

/-- A processor and the guards created on it; a dropped guard leaves a gap. -/
structure Guards where
  cpu : Cpu
  guards : Array (Option Guard) := #[]
  deriving DecidableEq, Repr

inductive GuardsStep where
  | create
  | drop (k : Nat)
  | enable
  | disable
  deriving DecidableEq, Repr

inductive GuardsResult where
  | done
  | created (k : Nat)
  | dropped (held : Bool)
  deriving DecidableEq, Repr

def GuardsStep.perform (s : Guards) : GuardsStep → GuardsResult × Guards
  | create =>
      let (guard, cpu) := Guard.create s.cpu
      (.created s.guards.size, { cpu, guards := s.guards.push (some guard) })
  | drop k =>
      match s.guards[k]?.join with
      | none => (.dropped false, s)
      | some guard =>
          (.dropped true, { cpu := guard.drop s.cpu, guards := s.guards.setIfInBounds k none })
  | enable => (.done, { s with cpu := s.cpu.enable })
  | disable => (.done, { s with cpu := s.cpu.disable })

end Bench
end Coop
