import Coop.Proofs.Thread.Slots

/-!
# Who waits for whom

A thread that has not exited may name a joiner, and a joiner is blocked until the
thread that names it exits.  The joins of a table are in order when these two
views agree.  Each change of a table is described by what it does to the two
views, and then it is a matter of logic whether the order is kept.
-/

namespace Coop
namespace Thread
namespace Table

variable {β : Type} {t t' : Table β}

/-- The handle is to be woken when the thread in slot `target`, which goes on, exits. -/
def Awaits (t : Table β) (h : Handle) (target : Nat) : Prop :=
  ∃ b, t.get? target = some b ∧ b.state ≠ .exited ∧ b.joiner = some h

def Blocked (t : Table β) (h : Handle) : Prop :=
  ∃ j, t.lookup h = some j ∧ j.state = .blockedOnJoin

/-- Every blocked joiner awaits exactly one thread, which is another one. -/
structure Joins (t : Table β) : Prop where
  blocked : ∀ {h target}, t.Awaits h target → t.Blocked h
  ne_target : ∀ {h target}, t.Awaits h target → h.slot ≠ target
  unique : ∀ {h target target'}, t.Awaits h target → t.Awaits h target' → target = target'
  awaits : ∀ {h}, t.Blocked h → ∃ target, t.Awaits h target

theorem Joins.of_iff (h : t.Joins) (hawaits : ∀ j target, t'.Awaits j target ↔ t.Awaits j target)
    (hblocked : ∀ j, t'.Blocked j ↔ t.Blocked j) : t'.Joins where
  blocked hj := (hblocked _).mpr (h.blocked ((hawaits _ _).mp hj))
  ne_target hj := h.ne_target ((hawaits _ _).mp hj)
  unique hj hj' := h.unique ((hawaits _ _).mp hj) ((hawaits _ _).mp hj')
  awaits hj := by
    rcases h.awaits ((hblocked _).mp hj) with ⟨target, htarget⟩
    exact ⟨target, (hawaits _ _).mpr htarget⟩

theorem blocked_iff_get? {h : Handle} :
    t.Blocked h ↔ ∃ j, t.get? h.slot = some j ∧ j.id = h.id ∧ j.state = .blockedOnJoin := by
  simp only [Blocked, lookup_eq_some_iff, and_assoc]

theorem Joins.empty (limit : Nat) : (Table.empty limit : Table β).Joins where
  blocked := by simp [Awaits]
  ne_target := by simp [Awaits]
  unique := by simp [Awaits]
  awaits := by simp [blocked_iff_get?]

/-!
# The two views after a change
-/

section Modify

variable {slot : Nat} {b : Block β} {f : Block β → Block β}

theorem awaits_modify (hget : t.get? slot = some b) (h : Handle) (target : Nat) :
    (t.modify slot f).Awaits h target ↔
      (target = slot ∧ (f b).state ≠ .exited ∧ (f b).joiner = some h) ∨
        (target ≠ slot ∧ t.Awaits h target) := by
  by_cases htarget : target = slot
  · subst htarget
    simp [Awaits, hget]
  · simp [Awaits, get?_modify, htarget]

theorem blocked_modify (hget : t.get? slot = some b) (h : Handle) :
    (t.modify slot f).Blocked h ↔
      (h.slot = slot ∧ (f b).id = h.id ∧ (f b).state = .blockedOnJoin) ∨
        (h.slot ≠ slot ∧ t.Blocked h) := by
  by_cases hslot : h.slot = slot
  · simp [blocked_iff_get?, hslot, hget]
  · simp [blocked_iff_get?, get?_modify, hslot]

theorem awaits_iff_of_get? (hget : t.get? slot = some b) (h : Handle) (target : Nat) :
    t.Awaits h target ↔ (target = slot ∧ b.state ≠ .exited ∧ b.joiner = some h) ∨
      (target ≠ slot ∧ t.Awaits h target) := by
  by_cases htarget : target = slot
  · subst htarget
    simp [Awaits, hget]
  · simp [htarget]

theorem blocked_iff_of_get? (hget : t.get? slot = some b) (h : Handle) :
    t.Blocked h ↔ (h.slot = slot ∧ b.id = h.id ∧ b.state = .blockedOnJoin) ∨
      (h.slot ≠ slot ∧ t.Blocked h) := by
  by_cases hslot : h.slot = slot
  · simp [blocked_iff_get?, hslot, hget]
  · simp [hslot]

theorem not_blocked_of_running (hget : t.get? slot = some b) (hrunning : b.state = .running)
    {h : Handle} (hslot : h.slot = slot) : ¬ t.Blocked h := by
  rw [blocked_iff_of_get? hget, hrunning]
  simp [hslot]

theorem Joins.modify (h : t.Joins) (hget : t.get? slot = some b) (hid : (f b).id = b.id)
    (hexited : (f b).state = .exited ↔ b.state = .exited)
    (hblocked : (f b).state = .blockedOnJoin ↔ b.state = .blockedOnJoin)
    (hjoiner : (f b).joiner = b.joiner) : (t.modify slot f).Joins := by
  apply h.of_iff
  · intro j target
    refine (awaits_modify hget j target).trans ?_
    rw [hexited.ne, hjoiner]
    exact (awaits_iff_of_get? hget j target).symm
  · intro j
    refine (blocked_modify hget j).trans ?_
    rw [hid, hblocked]
    exact (blocked_iff_of_get? hget j).symm

end Modify

theorem Joins.remove (h : t.Joins) {slot : Nat} {b : Block β} (hget : t.get? slot = some b)
    (hstate : b.state ≠ .blockedOnJoin) (hleaves : b.state = .exited ∨ b.joiner = none) :
    (t.remove slot).2.Joins := by
  apply h.of_iff
  · intro j target
    by_cases htarget : target = slot
    · subst htarget
      rcases hleaves with hexited | hnone
      · simp [Awaits, get?_remove, hget, hexited]
      · simp [Awaits, get?_remove, hget, hnone]
    · simp [Awaits, get?_remove, htarget]
  · intro j
    by_cases hslot : j.slot = slot
    · simp [blocked_iff_get?, get?_remove, hslot, hget, hstate]
    · simp [blocked_iff_get?, get?_remove, hslot]

theorem Joins.insert (h : t.Joins) (ht : t.Packed) {b : Block β} (hstate : b.state ≠ .blockedOnJoin)
    (hjoiner : b.joiner = none) : (t.insert b).2.Joins := by
  apply h.of_iff
  · intro j target
    by_cases htarget : target = t.nextSlot
    · subst htarget
      simp [Awaits, ht.get?_insert, ht.get?_nextSlot, hjoiner]
    · simp [Awaits, ht.get?_insert, htarget]
  · intro j
    by_cases hslot : j.slot = t.nextSlot
    · simp [blocked_iff_get?, ht.get?_insert, hslot, ht.get?_nextSlot, hstate]
    · simp [blocked_iff_get?, ht.get?_insert, hslot]

/-!
# A join begins, and a join ends
-/

theorem Joins.extend (h : t.Joins) {caller : Handle} {target : Nat}
    (hcaller : ¬ t.Blocked caller) (hne : caller.slot ≠ target)
    (hawaits : ∀ j other, t'.Awaits j other ↔ t.Awaits j other ∨ other = target ∧ j = caller)
    (hblocked : ∀ j, t'.Blocked j ↔ t.Blocked j ∨ j = caller) : t'.Joins where
  blocked := by
    intro j other hj
    rw [hblocked]
    rcases (hawaits j other).mp hj with hold | ⟨-, rfl⟩
    · exact Or.inl (h.blocked hold)
    · exact Or.inr rfl
  ne_target := by
    intro j other hj
    rcases (hawaits j other).mp hj with hold | ⟨rfl, rfl⟩
    · exact h.ne_target hold
    · exact hne
  unique := by
    intro j other other' hj hj'
    rcases (hawaits j other).mp hj with hold | ⟨rfl, rfl⟩
    · rcases (hawaits j other').mp hj' with hold' | ⟨rfl, rfl⟩
      · exact h.unique hold hold'
      · exact absurd (h.blocked hold) hcaller
    · rcases (hawaits _ other').mp hj' with hold' | ⟨rfl, -⟩
      · exact absurd (h.blocked hold') hcaller
      · rfl
  awaits := by
    intro j hj
    rcases (hblocked j).mp hj with hold | rfl
    · rcases h.awaits hold with ⟨other, hother⟩
      exact ⟨other, (hawaits j other).mpr (Or.inl hother)⟩
    · exact ⟨target, (hawaits _ target).mpr (Or.inr ⟨rfl, rfl⟩)⟩

section Await

variable {slot target : Nat} {b c : Block β}

/-- The thread in a slot names itself as the joiner of a target, and blocks. -/
def await (t : Table β) (slot target : Nat) (id : Id) : Table β :=
  (t.modify target fun c => { c with joiner := some ⟨slot, id⟩ }).modify slot fun b =>
    { b with state := .blockedOnJoin }

theorem awaits_await (hne : target ≠ slot) (hget : t.get? slot = some b)
    (hrunning : b.state = .running) (hc : t.get? target = some c) (hlive : c.state ≠ .exited)
    (hfree : c.joiner = none) (j : Handle) (other : Nat) :
    (t.await slot target b.id).Awaits j other ↔
      t.Awaits j other ∨ other = target ∧ j = ⟨slot, b.id⟩ := by
  have hget' : (t.modify target fun c => { c with joiner := some ⟨slot, b.id⟩ }).get? slot =
      some b := by
    rw [get?_modify_of_ne t _ hne.symm, hget]
  rw [await, awaits_modify hget', awaits_modify hc]
  by_cases hslot : other = slot
  · subst hslot
    simp [Awaits, hget, hrunning, hne.symm]
  · by_cases htarget : other = target
    · subst htarget
      simp [Awaits, hc, hlive, hfree, hne, eq_comm]
    · simp [hslot, htarget]

theorem blocked_await (hne : target ≠ slot) (hget : t.get? slot = some b)
    (hrunning : b.state = .running) (hc : t.get? target = some c) (j : Handle) :
    (t.await slot target b.id).Blocked j ↔ t.Blocked j ∨ j = ⟨slot, b.id⟩ := by
  have hget' : (t.modify target fun c => { c with joiner := some ⟨slot, b.id⟩ }).get? slot =
      some b := by
    rw [get?_modify_of_ne t _ hne.symm, hget]
  have htarget : (t.modify target fun c => { c with joiner := some ⟨slot, b.id⟩ }).Blocked j ↔
      t.Blocked j :=
    (blocked_modify hc j).trans (blocked_iff_of_get? hc j).symm
  rw [await, blocked_modify hget', htarget]
  by_cases hslot : j.slot = slot
  · have hj := not_blocked_of_running hget hrunning hslot
    rcases j with ⟨jslot, jid⟩
    simp only at hslot
    subst hslot
    simp [hj, eq_comm]
  · have hj : j ≠ ⟨slot, b.id⟩ := by
      rintro rfl
      exact hslot rfl
    simp [hslot, hj]

theorem Joins.await (h : t.Joins) (hne : target ≠ slot) (hget : t.get? slot = some b)
    (hrunning : b.state = .running) (hc : t.get? target = some c) (hlive : c.state ≠ .exited)
    (hfree : c.joiner = none) : (t.await slot target b.id).Joins :=
  h.extend (not_blocked_of_running hget hrunning rfl) hne.symm
    (awaits_await hne hget hrunning hc hlive hfree) (blocked_await hne hget hrunning hc)

end Await

section Exit

variable {slot : Nat} {b : Block β}

theorem awaits_exit (hget : t.get? slot = some b) (code : Int32) (h : Handle) (target : Nat) :
    (t.modify slot fun b => b.exit code).Awaits h target ↔ target ≠ slot ∧ t.Awaits h target := by
  rw [awaits_modify hget]
  simp [Block.exit]

theorem blocked_exit (hget : t.get? slot = some b) (hrunning : b.state = .running) (code : Int32)
    (h : Handle) : (t.modify slot fun b => b.exit code).Blocked h ↔ t.Blocked h := by
  refine (blocked_modify hget h).trans (Iff.trans ?_ (blocked_iff_of_get? hget h).symm)
  simp [Block.exit, hrunning]

theorem Joins.exit (h : t.Joins) (hget : t.get? slot = some b) (hrunning : b.state = .running)
    (hjoiner : b.joiner = none) (code : Int32) : (t.modify slot fun b => b.exit code).Joins := by
  apply h.of_iff
  · intro j target
    rw [awaits_exit hget]
    constructor
    · exact And.right
    · intro hj
      refine ⟨?_, hj⟩
      rintro rfl
      rcases hj with ⟨c, hc, -, hcj⟩
      rw [hget] at hc
      injection hc with hc
      rw [← hc, hjoiner] at hcj
      cases hcj
  · exact blocked_exit hget hrunning code

theorem awaits_exit_ready {c : Block β} {j : Handle} (hget : t.get? slot = some b)
    (hne : j.slot ≠ slot) (hc : t.get? j.slot = some c) (hblocked : c.state = .blockedOnJoin)
    (code : Int32) (h : Handle) (target : Nat) :
    ((t.modify slot fun b => b.exit code).modify j.slot Block.ready).Awaits h target ↔
      target ≠ slot ∧ t.Awaits h target := by
  have hc' : (t.modify slot fun b => b.exit code).get? j.slot = some c := by
    rw [get?_modify_of_ne t _ hne, hc]
  rw [← awaits_exit hget code]
  refine (awaits_modify hc' h target).trans (Iff.trans ?_ (awaits_iff_of_get? hc' h target).symm)
  simp [Block.ready, hblocked]

theorem blocked_exit_ready {c : Block β} {j : Handle} (hget : t.get? slot = some b)
    (hrunning : b.state = .running) (hne : j.slot ≠ slot) (hc : t.lookup j = some c) (code : Int32)
    (h : Handle) :
    ((t.modify slot fun b => b.exit code).modify j.slot Block.ready).Blocked h ↔
      h ≠ j ∧ t.Blocked h := by
  have hc' : (t.modify slot fun b => b.exit code).get? j.slot = some c := by
    rw [get?_modify_of_ne t _ hne, (lookup_eq_some_iff.mp hc).1]
  rw [blocked_modify hc', blocked_exit hget hrunning]
  by_cases hslot : h.slot = j.slot
  · simp only [hslot, Block.ready, ne_eq, not_true, false_and, or_false]
    constructor
    · rintro ⟨-, -, hready⟩
      cases hready
    · rintro ⟨hother, c', hc'', -⟩
      rw [lookup_eq_none_of_ne hc hslot hother] at hc''
      cases hc''
  · have hother : h ≠ j := by
      rintro rfl
      exact hslot rfl
    simp [hslot, hother]

theorem Joins.exit_ready (h : t.Joins) (hget : t.get? slot = some b) (hrunning : b.state = .running)
    {j : Handle} (hjoiner : b.joiner = some j) (code : Int32) :
    ((t.modify slot fun b => b.exit code).modify j.slot Block.ready).Joins := by
  have hj : t.Awaits j slot := ⟨b, hget, by rw [hrunning]; decide, hjoiner⟩
  have hne : j.slot ≠ slot := h.ne_target hj
  rcases h.blocked hj with ⟨c, hc, hblocked⟩
  have hawaits := awaits_exit_ready hget hne (lookup_eq_some_iff.mp hc).1 hblocked code
  have hstill := blocked_exit_ready hget hrunning hne hc code
  constructor
  · intro j' target hj'
    rcases (hawaits j' target).mp hj' with ⟨htarget, hold⟩
    refine (hstill j').mpr ⟨?_, h.blocked hold⟩
    rintro rfl
    exact htarget (h.unique hold hj)
  · intro j' target hj'
    exact h.ne_target ((hawaits j' target).mp hj').2
  · intro j' target target' hj' hj''
    exact h.unique ((hawaits j' target).mp hj').2 ((hawaits j' target').mp hj'').2
  · intro j' hj'
    rcases (hstill j').mp hj' with ⟨hother, hold⟩
    rcases h.awaits hold with ⟨target, htarget⟩
    refine ⟨target, (hawaits j' target).mpr ⟨?_, htarget⟩⟩
    rintro rfl
    rcases htarget with ⟨b', hb', -, hjoiner'⟩
    rw [hget] at hb'
    injection hb' with hb'
    rw [← hb', hjoiner] at hjoiner'
    injection hjoiner' with hjoiner'
    exact hother hjoiner'.symm

end Exit

end Table
end Thread
end Coop
