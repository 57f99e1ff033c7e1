import Coop.Proofs.Scheduler.Origins

/-!
# Handles that were given out

A handle may outlive its thread, and by then its slot may hold another one.  But a
handle that was given out stands for one thread only: no thread in another slot has
its identifier, then or later.  So the identifier says as much as the handle.
-/

namespace Coop

open Thread (Block Handle Id Life Table)

def Answer.handles {β : Type} : Answer β → List Handle
  | .handle h => [h]
  | .transfer t => [t.source, t.target]
  | _ => []

namespace Outline

variable {β : Type} {o o' : Outline β} {h : Handle} {supply : Supply} {request : Request β}
  {result : Except Error (Answer β)}

/-- The identifier of the handle was given out, and for its slot alone. -/
structure Genuine (o : Outline β) (h : Handle) : Prop where
  given : h.id < o.nextId
  alone : ∀ slot l, o.life? ⟨slot, h.id⟩ = some l → slot = h.slot

def JoinersGenuine (o : Outline β) : Prop :=
  ∀ h l j, o.life? h = some l → l.joiner = some j → o.Genuine j

/-!
# Threads that live
-/

theorem Sound.genuine (ho : o.Sound) {b : Block β} (hlookup : o.table.lookup h = some b) :
    o.Genuine h where
  given := ho.id_lt_of_life? (Table.life?_of_lookup hlookup)
  alone := by
    intro slot l hlife
    rcases Option.map_eq_some_iff.mp hlife with ⟨c, hc, -⟩
    have hsame := ho.numbered.eq_of_id_eq hc hlookup rfl
    rw [← hsame]

theorem Genuine.eq_of_id_eq {j : Handle} {b : Block β} (hj : o.Genuine j)
    (hlookup : o.table.lookup h = some b) (hid : h.id = j.id) : h = j := by
  rcases h with ⟨slot, id⟩
  rcases j with ⟨slot', id'⟩
  simp only at hid
  subst hid
  rw [hj.alone slot b.life (Table.life?_of_lookup hlookup)]

/-!
# Steps
-/

theorem Step.genuine (ho : o.Sound) (hstep : o.Step supply request result o') (h' : o.Genuine h) :
    o'.Genuine h where
  given := Nat.lt_of_lt_of_le h'.given hstep.nextId_le
  alone := by
    intro slot l hlife
    have hfate := hstep.fate ho ⟨slot, h.id⟩
    rw [hlife] at hfate
    cases hbefore : o.life? ⟨slot, h.id⟩ with
    | some l₀ => exact h'.alone slot l₀ hbefore
    | none =>
        rw [hbefore] at hfate
        cases hfate with
        | born hid _ _ => exact absurd hid (Nat.ne_of_lt h'.given)

theorem Step.joinersGenuine (ho : o.Sound) (hstep : o.Step supply request result o')
    (hjoiners : o.JoinersGenuine) : o'.JoinersGenuine := by
  intro h l j hlife hjoiner
  apply hstep.genuine ho
  have hfate := hstep.fate ho h
  rw [hlife] at hfate
  generalize hbefore : o.life? h = before at hfate
  cases hfate with
  | kept => exact hjoiners h l j hbefore hjoiner
  | born _ _ _ => cases hjoiner
  | joined hruns _ _ _ _ =>
      injection hjoiner with hjoiner
      subst hjoiner
      rcases hruns.2 with ⟨b, hlookup⟩
      exact ho.genuine hlookup
  | exited _ _ _ => exact hjoiners h _ j hbefore hjoiner
  | detached _ _ => cases hjoiner

/-- The threads that an answer names live, or lived until then. -/
theorem Step.genuine_of_mem_handles (ho : o.Sound) {answer : Answer β}
    (hstep : o.Step supply request (.ok answer) o') (hmem : h ∈ answer.handles) :
    o'.Genuine h := by
  have ho' := hstep.sound ho
  have hlater : o.Genuine h → o'.Genuine h := hstep.genuine ho
  have hborn : ∀ {h'}, answer = .handle h' → o'.Genuine h' := by
    rintro h' rfl
    rcases hstep.lookup_of_handle ho with ⟨b, -, hlookup⟩
    exact ho'.genuine hlookup
  cases hstep with
  | idle hidle => cases hidle <;> cases hmem
  | bootstrapped _ _ =>
      rw [List.mem_singleton.mp hmem]
      exact hborn rfl
  | spawned _ _ _ =>
      rw [List.mem_singleton.mp hmem]
      exact hborn rfl
  | took _ _ => cases hmem
  | @switched cur slot rest b c request o₁ hcurrent hget hleaves hready htarget =>
      rcases List.mem_cons.mp hmem with hsource | hmem
      · rw [hsource] at hlater ⊢
        exact hlater (ho.genuine (Table.lookup_of_get? hget))
      · have hrunning := Table.get?_modify_same o₁.table slot Block.run
        rw [htarget] at hrunning
        rw [List.mem_singleton.mp hmem]
        exact ho'.genuine (Table.lookup_of_get? (b := c.run) hrunning)
  | delivered _ _ _ _ _ _ => cases hmem
  | detached _ _ _ _ => cases hmem
  | dropped _ _ _ _ => cases hmem
  | woken _ => cases hmem

end Outline

end Coop
