import Coop.Proofs.Thread.Links

/-!
# Queues as lists of slots

A queue holds a list when the links of its members lead through that list, from
the head of the queue to its tail.  Pushing appends to the list, removing erases
from it, and neither touches the links of any other slot.
-/

namespace Coop
namespace Thread

variable {β : Type} {lane : Lane}

/-!
# Chains of links

A chain is a part of a queue: its first slot links back to the slot before the
chain, and its last one forward to the slot after it.
-/

/-- The slots are linked one after the other, between `prev` and `next`. -/
def Chained (t : Table β) (lane : Lane) : Option Nat → List Nat → Option Nat → Prop
  | _, [], _ => True
  | prev, slot :: rest, next =>
      t.link lane slot = ⟨prev, rest.head?.or next, true⟩ ∧ Chained t lane (some slot) rest next

namespace Chained

variable {t t' : Table β} {prev next : Option Nat} {slots : List Nat}

theorem linked (h : Chained t lane prev slots next) {slot : Nat} (hmem : slot ∈ slots) :
    (t.link lane slot).linked = true := by
  induction slots generalizing prev with
  | nil => cases hmem
  | cons first rest ih =>
      rcases List.mem_cons.mp hmem with rfl | hrest
      · rw [h.1]
      · exact ih h.2 hrest

theorem congr (h : Chained t lane prev slots next)
    (hsame : ∀ slot ∈ slots, t'.link lane slot = t.link lane slot) :
    Chained t' lane prev slots next := by
  induction slots generalizing prev with
  | nil => trivial
  | cons first rest ih =>
      constructor
      · rw [hsame first List.mem_cons_self]
        exact h.1
      · exact ih h.2 fun slot hmem => hsame slot (List.mem_cons_of_mem first hmem)

theorem append_iff {front back : List Nat} :
    Chained t lane prev (front ++ back) next ↔
      Chained t lane prev front (back.head?.or next) ∧
        Chained t lane (front.getLast?.or prev) back next := by
  induction front generalizing prev with
  | nil => simp [Chained]
  | cons first rest ih =>
      have hhead : (rest ++ back).head?.or next = rest.head?.or (back.head?.or next) := by
        cases rest <;> simp
      have hlast : (first :: rest).getLast?.or prev = rest.getLast?.or (some first) := by
        cases rest with
        | nil => rfl
        | cons second more =>
            rw [List.getLast?_cons_cons, List.getLast?_cons, Option.some_or, Option.some_or]
      rw [List.cons_append, hlast]
      simp only [Chained, hhead, ih, and_assoc]

/-- A chain that leads elsewhere at its end. -/
theorem setNext {front : List Nat} {last : Nat} {next' : Option Nat}
    (h : Chained t lane prev (front ++ [last]) next)
    (hsame : ∀ slot ∈ front, t'.link lane slot = t.link lane slot)
    (hlast : t'.link lane last = { t.link lane last with next := next' }) :
    Chained t' lane prev (front ++ [last]) next' := by
  rcases append_iff.mp h with ⟨hfront, hend⟩
  refine append_iff.mpr ⟨hfront.congr hsame, ?_, trivial⟩
  rw [hlast, hend.1]
  rfl

/-- A chain that is reached from elsewhere. -/
theorem setPrev {first : Nat} {rest : List Nat} {prev' : Option Nat}
    (h : Chained t lane prev (first :: rest) next)
    (hfirst : t'.link lane first = { t.link lane first with prev := prev' })
    (hsame : ∀ slot ∈ rest, t'.link lane slot = t.link lane slot) :
    Chained t' lane prev' (first :: rest) next := by
  refine ⟨?_, h.2.congr hsame⟩
  rw [hfirst, h.1]

theorem link_middle {front back : List Nat} {slot : Nat}
    (h : Chained t lane none (front ++ slot :: back) none) :
    t.link lane slot = ⟨front.getLast?, back.head?, true⟩ := by
  have hslot := (append_iff.mp h).2.1
  simpa using hslot

end Chained

namespace Queue

structure Holds (q : Queue lane) (t : Table β) (slots : List Nat) : Prop where
  head : q.head = slots.head?
  tail : q.tail = slots.getLast?
  len : q.len = slots.length
  nodup : slots.Nodup
  chained : Chained t lane none slots none

namespace Holds

variable {q : Queue lane} {t t' : Table β} {slots : List Nat}

theorem nil (t : Table β) : ({} : Queue lane).Holds t [] :=
  ⟨rfl, rfl, rfl, List.nodup_nil, trivial⟩

theorem eq_blank (h : q.Holds t []) : q = {} := by
  rcases q with ⟨head, tail, len⟩
  rcases h with ⟨hhead, htail, hlen, -, -⟩
  simp only [List.head?_nil, List.getLast?_nil, List.length_nil] at hhead htail hlen
  rw [hhead, htail, hlen]
  rfl

theorem linked (h : q.Holds t slots) {slot : Nat} (hmem : slot ∈ slots) :
    (t.link lane slot).linked = true :=
  h.chained.linked hmem

theorem occupied (h : q.Holds t slots) {slot : Nat} (hmem : slot ∈ slots) :
    t.isOccupied slot = true :=
  Table.isOccupied_of_linked (h.linked hmem)

theorem congr (h : q.Holds t slots)
    (hsame : ∀ slot ∈ slots, t'.link lane slot = t.link lane slot) : q.Holds t' slots :=
  { h with chained := h.chained.congr hsame }

theorem isEmpty_eq (h : q.Holds t slots) : q.isEmpty = slots.isEmpty := by
  unfold isEmpty
  rw [h.head]
  cases slots <;> rfl

/-!
# Following the links
-/

theorem follow_eq_take (h : Chained t lane none slots none) (count : Nat) :
    follow t lane count slots.head? = slots.take count := by
  suffices hgeneral : ∀ prev, Chained t lane prev slots none →
      follow t lane count slots.head? = slots.take count from hgeneral none h
  clear h
  induction slots generalizing count with
  | nil => cases count <;> simp [follow]
  | cons first rest ih =>
      intro prev h
      cases count with
      | zero => rfl
      | succ count =>
          have hnext : (t.link lane first).next = rest.head? := by
            rw [h.1]
            simp
          simp only [List.head?_cons, follow, hnext, List.take_succ_cons]
          rw [ih count (some first) h.2]

theorem take_eq (h : q.Holds t slots) (count : Nat) : q.take t count = slots.take count := by
  unfold Queue.take
  rw [h.head]
  exact follow_eq_take h.chained count

/-!
# Joining at the back
-/

theorem push_nil {slot : Nat} (h : q.Holds t []) (hslot : t.isOccupied slot = true) :
    q.push t slot = (⟨some slot, some slot, q.len + 1⟩,
      t.modifyLink lane slot fun _ => ⟨none, none, true⟩) := by
  have htail : q.tail = none := h.tail
  simp [Queue.push, hslot, htail]

theorem push_concat {front : List Nat} {last slot : Nat} (h : q.Holds t (front ++ [last]))
    (hslot : t.isOccupied slot = true) :
    q.push t slot = (⟨q.head, some slot, q.len + 1⟩,
      (t.modifyLink lane slot fun _ => ⟨some last, none, true⟩).modifyLink lane last fun l =>
        { l with next := some slot }) := by
  have htail : q.tail = some last := by simpa using h.tail
  have hlast : t.isOccupied last = true := h.occupied (by simp)
  simp [Queue.push, hslot, htail, hlast, Option.filter]

theorem link_push {slot other : Nat} (h : q.Holds t slots) (hslot : t.isOccupied slot = true)
    (hne : other ≠ slot) (hmem : other ∉ slots) :
    (q.push t slot).2.link lane other = t.link lane other := by
  rcases List.eq_nil_or_concat slots with rfl | ⟨front, last, rfl⟩
  · rw [h.push_nil hslot]
    exact Table.link_modifyLink_of_ne hne
  · have hlast : other ≠ last := by
      rintro rfl
      exact hmem (by simp)
    rw [List.concat_eq_append] at h
    rw [h.push_concat hslot]
    show Table.link _ lane other = _
    rw [Table.link_modifyLink_of_ne hlast, Table.link_modifyLink_of_ne hne]

theorem push {slot : Nat} (h : q.Holds t slots) (hslot : t.isOccupied slot = true)
    (hmem : slot ∉ slots) : (q.push t slot).1.Holds (q.push t slot).2 (slots ++ [slot]) := by
  rcases List.eq_nil_or_concat slots with rfl | ⟨front, last, rfl⟩
  · rw [h.push_nil hslot]
    have hlen : q.len = 0 := h.len
    refine ⟨rfl, rfl, ?_, List.nodup_singleton slot, ?_, trivial⟩
    · simp [hlen]
    · exact Table.link_modifyLink_same hslot
  · rw [List.concat_eq_append] at h hmem ⊢
    have hlast : last ≠ slot := by
      rintro rfl
      exact hmem (by simp)
    have hfront : ∀ other ∈ front, other ≠ last ∧ other ≠ slot := by
      intro other hother
      constructor
      · rintro rfl
        exact (List.nodup_append.mp h.nodup).2.2 other hother other (by simp) rfl
      · rintro rfl
        exact hmem (by simp [hother])
    rw [h.push_concat hslot]
    have hoccupied : t.isOccupied last = true := h.occupied (by simp)
    refine ⟨?_, ?_, ?_, ?_, ?_⟩
    · show q.head = _
      rw [h.head]
      cases front <;> rfl
    · simp
    · show q.len + 1 = _
      rw [h.len]
      simp
      omega
    · exact List.nodup_append.mpr ⟨h.nodup, List.nodup_singleton slot, by
        intro a ha b hb
        rw [List.mem_singleton] at hb
        rintro rfl
        exact hmem (hb ▸ ha)⟩
    · refine Chained.append_iff.mpr ⟨h.chained.setNext ?_ ?_, ?_, trivial⟩
      · intro other hother
        rw [Table.link_modifyLink_of_ne (hfront other hother).1,
          Table.link_modifyLink_of_ne (hfront other hother).2]
      · rw [Table.link_modifyLink_same (by simpa using hoccupied),
          Table.link_modifyLink_of_ne hlast]
        rfl
      · rw [Table.link_modifyLink_of_ne hlast.symm, Table.link_modifyLink_same hslot]
        simp

end Holds

/-!
# Leaving from anywhere
-/

/-- The table with the neighbours of a member that left linked to each other. -/
def bridge (t : Table β) (lane : Lane) (before after : Option Nat) : Table β :=
  let t :=
    match before with
    | none => t
    | some prev => t.modifyLink lane prev fun l => { l with next := after }
  match after with
  | none => t
  | some next => t.modifyLink lane next fun l => { l with prev := before }

theorem link_bridge_of_ne {t : Table β} {before after : Option Nat} {other : Nat}
    (hbefore : before ≠ some other) (hafter : after ≠ some other) :
    (bridge t lane before after).link lane other = t.link lane other := by
  have hne : ∀ slot, some slot ≠ some other → other ≠ slot := by
    rintro slot h rfl
    exact h rfl
  unfold bridge
  cases before with
  | none =>
      cases after with
      | none => rfl
      | some next => exact Table.link_modifyLink_of_ne (hne next hafter)
  | some prev =>
      have hprev : (t.modifyLink lane prev fun l => { l with next := after }).link lane other =
          t.link lane other := Table.link_modifyLink_of_ne (hne prev hbefore)
      cases after with
      | none => exact hprev
      | some next => exact (Table.link_modifyLink_of_ne (hne next hafter)).trans hprev

theorem link_bridge_before {t : Table β} {prev : Nat} {after : Option Nat}
    (h : t.isOccupied prev = true) (hafter : after ≠ some prev) :
    (bridge t lane (some prev) after).link lane prev =
      { t.link lane prev with next := after } := by
  have hprev : (t.modifyLink lane prev fun l => { l with next := after }).link lane prev =
      { t.link lane prev with next := after } := Table.link_modifyLink_same h
  unfold bridge
  cases after with
  | none => exact hprev
  | some next =>
      have hne : prev ≠ next := by
        rintro rfl
        exact hafter rfl
      exact (Table.link_modifyLink_of_ne hne).trans hprev

theorem link_bridge_after {t : Table β} {next : Nat} {before : Option Nat}
    (h : t.isOccupied next = true) (hbefore : before ≠ some next) :
    (bridge t lane before (some next)).link lane next =
      { t.link lane next with prev := before } := by
  unfold bridge
  cases before with
  | none => exact Table.link_modifyLink_same h
  | some prev =>
      have hne : next ≠ prev := by
        rintro rfl
        exact hbefore rfl
      rw [Table.link_modifyLink_same (by simpa using h), Table.link_modifyLink_of_ne hne]

theorem remove_of_vacant {q : Queue lane} {t : Table β} {slot : Nat} (h : t.get? slot = none) :
    q.remove t slot = (false, q, t) := by
  simp [remove, h]

theorem remove_of_unlinked {q : Queue lane} {t : Table β} {slot : Nat}
    (hslot : t.isOccupied slot = true) (h : (t.link lane slot).linked = false) :
    q.remove t slot = (false, q, t.modifyLink lane slot fun _ => {}) := by
  rcases Table.isOccupied_eq_true_iff.mp hslot with ⟨b, hget⟩
  rw [Table.link_eq_of_get? hget] at h
  simp [remove, hget, h]

theorem remove_of_linked {q : Queue lane} {t : Table β} {slot : Nat} {before after : Option Nat}
    (h : t.link lane slot = ⟨before, after, true⟩)
    (hbefore : ∀ prev, before = some prev → t.isOccupied prev = true)
    (hafter : ∀ next, after = some next → t.isOccupied next = true) :
    q.remove t slot =
      (true,
        ⟨if before.isNone then after else q.head, if after.isNone then before else q.tail,
          q.len - 1⟩,
        bridge (t.modifyLink lane slot fun _ => {}) lane before after) := by
  have hslot : t.isOccupied slot = true :=
    Table.isOccupied_of_linked (by rw [h])
  rcases Table.isOccupied_eq_true_iff.mp hslot with ⟨b, hget⟩
  rw [Table.link_eq_of_get? hget] at h
  cases before with
  | none =>
      cases after with
      | none => simp [remove, hget, h, bridge]
      | some next => simp [remove, hget, h, bridge, Option.filter, hafter next rfl]
  | some prev =>
      cases after with
      | none => simp [remove, hget, h, bridge, Option.filter, hbefore prev rfl]
      | some next =>
          simp [remove, hget, h, bridge, Option.filter, hbefore prev rfl, hafter next rfl]

namespace Holds

variable {q : Queue lane} {t t' : Table β} {front back : List Nat} {slot : Nat}

theorem remove_eq (h : q.Holds t (front ++ slot :: back)) :
    q.remove t slot =
      (true,
        ⟨if front.getLast?.isNone then back.head? else q.head,
          if back.head?.isNone then front.getLast? else q.tail, q.len - 1⟩,
        bridge (t.modifyLink lane slot fun _ => {}) lane front.getLast? back.head?) := by
  apply remove_of_linked h.chained.link_middle
  · intro prev hprev
    apply h.occupied
    have hmem : prev ∈ front := List.mem_of_getLast? hprev
    simp [hmem]
  · intro next hnext
    apply h.occupied
    have hmem : next ∈ back := List.mem_of_head? hnext
    simp [hmem]

theorem link_remove {other : Nat} (h : q.Holds t (front ++ slot :: back))
    (hmem : other ∉ front ++ slot :: back) :
    (q.remove t slot).2.2.link lane other = t.link lane other := by
  have hne : other ≠ slot := by
    rintro rfl
    exact hmem (by simp)
  rw [h.remove_eq]
  show Table.link _ lane other = _
  rw [link_bridge_of_ne, Table.link_modifyLink_of_ne hne]
  · intro hlast
    exact hmem (List.mem_append_left _ (List.mem_of_getLast? hlast))
  · intro hhead
    exact hmem (List.mem_append_right _ (List.mem_cons_of_mem _ (List.mem_of_head? hhead)))

theorem link_remove_same (h : q.Holds t (front ++ slot :: back)) :
    (q.remove t slot).2.2.link lane slot = {} := by
  have hslot : t.isOccupied slot = true := h.occupied (by simp)
  have hnodup := List.nodup_middle.mp h.nodup
  have hmem : slot ∉ front ++ back := (List.nodup_cons.mp hnodup).1
  rw [h.remove_eq]
  show Table.link _ lane slot = _
  rw [link_bridge_of_ne, Table.link_modifyLink_same hslot]
  · intro hlast
    exact hmem (List.mem_append_left _ (List.mem_of_getLast? hlast))
  · intro hhead
    exact hmem (List.mem_append_right _ (List.mem_of_head? hhead))

/-- The part before the member that left now leads to the part after it. -/
theorem chained_front (h : q.Holds t (front ++ slot :: back)) :
    Chained (bridge (t.modifyLink lane slot fun _ => {}) lane front.getLast? back.head?) lane
      none front back.head? := by
  have hnodup := List.nodup_middle.mp h.nodup
  have hfront : Chained t lane none front (some slot) := by
    simpa using (Chained.append_iff.mp h.chained).1
  have hmem : slot ∉ front ++ back := (List.nodup_cons.mp hnodup).1
  have hdisjoint := (List.nodup_append.mp (List.nodup_cons.mp hnodup).2).2.2
  have hback : ∀ other ∈ front, back.head? ≠ some other := by
    intro other hother hhead
    exact hdisjoint other hother other (List.mem_of_head? hhead) rfl
  have hne : ∀ other ∈ front, other ≠ slot := by
    rintro other hother rfl
    exact hmem (List.mem_append_left _ hother)
  rcases List.eq_nil_or_concat front with rfl | ⟨init, last, rfl⟩
  · trivial
  · rw [List.concat_eq_append] at h hfront hback hne ⊢
    have hlast : last ∉ init := by
      have hinit := (List.nodup_append.mp h.nodup).1
      intro hmem
      exact (List.nodup_append.mp hinit).2.2 last hmem last (by simp) rfl
    have hoccupied : t.isOccupied last = true := h.occupied (by simp)
    rw [List.getLast?_append, List.getLast?_singleton, Option.some_or]
    apply hfront.setNext
    · intro other hother
      rw [link_bridge_of_ne, Table.link_modifyLink_of_ne (hne other (by simp [hother]))]
      · rintro hother'
        injection hother' with hother'
        exact hlast (hother' ▸ hother)
      · exact hback other (by simp [hother])
    · rw [link_bridge_before (by simpa using hoccupied) (hback last (by simp)),
        Table.link_modifyLink_of_ne (hne last (by simp))]

theorem chained_back (h : q.Holds t (front ++ slot :: back)) :
    Chained (bridge (t.modifyLink lane slot fun _ => {}) lane front.getLast? back.head?) lane
      front.getLast? back none := by
  have hnodup := List.nodup_middle.mp h.nodup
  have hchain : Chained t lane (some slot) back none := (Chained.append_iff.mp h.chained).2.2
  have hmem : slot ∉ front ++ back := (List.nodup_cons.mp hnodup).1
  have hdisjoint := (List.nodup_append.mp (List.nodup_cons.mp hnodup).2).2.2
  have hfront : ∀ other ∈ back, front.getLast? ≠ some other := by
    intro other hother hlast
    exact hdisjoint other (List.mem_of_getLast? hlast) other hother rfl
  have hne : ∀ other ∈ back, other ≠ slot := by
    rintro other hother rfl
    exact hmem (List.mem_append_right _ hother)
  cases back with
  | nil => trivial
  | cons first rest =>
      have hfirst : first ∉ rest := by
        have hback := (List.nodup_append.mp (List.nodup_cons.mp hnodup).2).2.1
        exact (List.nodup_cons.mp hback).1
      have hoccupied : t.isOccupied first = true := h.occupied (by simp)
      rw [List.head?_cons]
      apply hchain.setPrev
      · rw [link_bridge_after (by simpa using hoccupied) (hfront first List.mem_cons_self),
          Table.link_modifyLink_of_ne (hne first List.mem_cons_self)]
      · intro other hother
        have hother' : other ∈ first :: rest := List.mem_cons_of_mem first hother
        rw [link_bridge_of_ne (hfront other hother'),
          Table.link_modifyLink_of_ne (hne other hother')]
        intro hfirst'
        injection hfirst' with hfirst'
        exact hfirst (hfirst' ▸ hother)

theorem remove (h : q.Holds t (front ++ slot :: back)) :
    (q.remove t slot).2.1.Holds (q.remove t slot).2.2 (front ++ back) := by
  have hhead := h.head
  have htail := h.tail
  have hlen := h.len
  rw [h.remove_eq]
  refine ⟨?_, ?_, ?_, ?_, ?_⟩
  · cases front with
    | nil => simp
    | cons first rest => simpa using hhead
  · cases back with
    | nil => simp
    | cons first rest => simpa [List.getLast?_append, List.getLast?_cons] using htail
  · simp only [List.length_append, List.length_cons] at hlen ⊢
    push_cast at hlen ⊢
    omega
  · exact (List.nodup_cons.mp (List.nodup_middle.mp h.nodup)).2
  · refine Chained.append_iff.mpr ⟨?_, ?_⟩
    · simpa using h.chained_front
    · simpa using h.chained_back

end Holds

/-!
# What no queue operation changes
-/

theorem bare_push (q : Queue lane) (t : Table β) (slot : Nat) :
    (q.push t slot).2.bare = t.bare := by
  unfold push
  by_cases hslot : t.isOccupied slot = true
  · simp only [hslot, if_true]
    split <;> simp
  · simp [hslot]

theorem bare_remove (q : Queue lane) (t : Table β) (slot : Nat) :
    (q.remove t slot).2.2.bare = t.bare := by
  unfold remove
  cases hget : t.get? slot with
  | none => rfl
  | some b =>
      simp only
      repeat' split
      all_goals simp

theorem link_push_of_lane_ne {lane' : Lane} (h : lane' ≠ lane) (q : Queue lane) (t : Table β)
    (slot other : Nat) : (q.push t slot).2.link lane' other = t.link lane' other := by
  unfold push
  by_cases hslot : t.isOccupied slot = true
  · simp only [hslot, if_true]
    split <;> simp [Table.link_modifyLink_of_lane_ne h]
  · simp [hslot]

theorem link_remove_of_lane_ne {lane' : Lane} (h : lane' ≠ lane) (q : Queue lane) (t : Table β)
    (slot other : Nat) : (q.remove t slot).2.2.link lane' other = t.link lane' other := by
  unfold remove
  cases hget : t.get? slot with
  | none => rfl
  | some b =>
      simp only
      repeat' split
      all_goals simp [Table.link_modifyLink_of_lane_ne h]

end Queue
end Thread
end Coop
