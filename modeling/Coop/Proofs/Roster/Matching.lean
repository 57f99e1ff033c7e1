import Coop.Proofs.Roster.Basic
import Coop.Proofs.Scheduler.Waking

/-!
# Outlines and rosters

An outline matches a roster when they know the same threads and line them up in the
same order, one by slots and the other by identifiers.  Every move of a step keeps
the match.
-/

namespace Coop

open Thread (Block Handle Id Spec Table)

/-!
# Threads of a roster
-/

namespace Roster

variable {β : Type} (threads : Threads β) (id : Id) (f : Record β → Record β)

theorem keys_insert (t : Record β) : (threads.insert id t).keys = insert id threads.keys := by
  ext other
  rw [Finmap.mem_keys, Finmap.mem_insert, Finset.mem_insert, Finmap.mem_keys]

theorem lookup_change (other : Id) :
    (change threads id f).lookup other =
      if other = id then (threads.lookup id).map f else threads.lookup other := by
  unfold change
  cases hother : decide (other = id) with
  | true =>
      have heq := of_decide_eq_true hother
      subst heq
      cases hlookup : threads.lookup other with
      | none => simp [hlookup]
      | some t => simp
  | false =>
      have hne := of_decide_eq_false hother
      rw [if_neg hne]
      cases threads.lookup id with
      | none => rfl
      | some t => exact Finmap.lookup_insert_of_ne threads hne

theorem keys_change : (change threads id f).keys = threads.keys := by
  unfold change
  cases hlookup : threads.lookup id with
  | none => rfl
  | some t =>
      have hmem : id ∈ threads.keys := Finmap.mem_keys.mpr (Finmap.mem_of_lookup_eq_some hlookup)
      simp only [keys_insert, Finset.insert_eq_of_mem hmem]

theorem keys_foldl_change (ids : List Id) :
    (ids.foldl (fun threads id => change threads id f) threads).keys = threads.keys := by
  induction ids generalizing threads with
  | nil => rfl
  | cons id ids ih => exact (ih _).trans (keys_change threads id f)

theorem lookup_foldl_change (hf : ∀ t, f (f t) = f t) (ids : List Id) (other : Id) :
    (ids.foldl (fun threads id => change threads id f) threads).lookup other =
      (threads.lookup other).map fun t => if other ∈ ids then f t else t := by
  induction ids generalizing threads with
  | nil => simp
  | cons id ids ih =>
      rw [List.foldl_cons, ih, lookup_change]
      cases hother : decide (other = id) with
      | true =>
          have heq := of_decide_eq_true hother
          subst heq
          cases threads.lookup other <;> simp [hf]
      | false =>
          have hne := of_decide_eq_false hother
          simp [hne]

end Roster

/-!
# What matches what
-/

def Thread.Block.record {β : Type} (b : Block β) : Roster.Record β where
  state := b.state
  detached := b.isDetached
  name := b.name
  exitCode := b.exitCode
  joiner := b.joiner.map Handle.id
  stack := b.stack
  body := b.body

namespace Outline

variable {β : Type}

def idAt (o : Outline β) (slot : Nat) : Option Id :=
  (o.table.get? slot).map Block.id

/-- The outline and the roster know the same, up to who has the processor. -/
structure Matches (o : Outline β) (r : Roster β) : Prop where
  config : r.config = o.config
  limit : o.table.limit = o.config.maxThreads
  live : r.live = o.table.live
  found : ∀ {slot b}, o.table.get? slot = some b → r.find? b.id = some b.record
  known : ∀ {id}, id ∈ r.threads.keys → ∃ slot, o.idAt slot = some id
  ready : r.ready.map some = o.ready.map o.idAt
  waiting : ∀ line, (r.waiting line).map some = (o.waiting line).map o.idAt
  pool : r.pool = o.pool
  nextId : r.nextId = o.nextId
  graveyard : r.graveyard = o.graveyard
  counters : r.counters = o.counters

theorem idAt_of_get? {o : Outline β} {slot : Nat} {b : Block β}
    (hget : o.table.get? slot = some b) : o.idAt slot = some b.id := by
  rw [idAt, hget]
  rfl

theorem idAt_modify {o : Outline β} {slot : Nat} {b : Block β} (hget : o.table.get? slot = some b)
    {f : Block β → Block β} (hid : (f b).id = b.id) : (o.modify slot f).idAt = o.idAt := by
  funext other
  unfold idAt Outline.modify
  simp only [Table.get?_modify]
  split
  · next heq =>
      rw [heq, hget]
      exact congrArg some hid
  · rfl

theorem idAt_wake (o : Outline β) (line : Line) : (o.wake line).idAt = o.idAt := by
  funext slot
  unfold idAt
  rw [o.wake_get?, Option.map_map]
  congr 1
  funext b
  simp only [Function.comp_apply]
  split <;> rfl

theorem idAt_store {o : Outline β} (hpacked : o.table.Packed) (b : Block β) {slot : Nat} {id : Id}
    (hslot : o.idAt slot = some id) : (o.store b).idAt slot = some id := by
  have hget : (o.store b).table.get? slot =
      if slot = o.table.nextSlot then some b else o.table.get? slot :=
    hpacked.get?_insert b slot
  unfold idAt at hslot ⊢
  rw [hget, if_neg, hslot]
  rintro rfl
  rw [hpacked.get?_nextSlot] at hslot
  cases hslot

/-- A list of identifiers stays right while its slots keep their threads. -/
theorem idAt_congr {o o' : Outline β} {ids : List Id} {slots : List Nat}
    (h : ids.map some = slots.map o.idAt)
    (hkept : ∀ slot id, slot ∈ slots → o.idAt slot = some id → o'.idAt slot = some id) :
    ids.map some = slots.map o'.idAt := by
  refine h.trans (List.map_congr_left fun slot hslot => ?_)
  have hmem : o.idAt slot ∈ ids.map some := by
    rw [h]
    exact List.mem_map_of_mem hslot
  rcases List.mem_map.mp hmem with ⟨id, -, hid⟩
  rw [hkept slot id hslot hid.symm, hid]

namespace Matches

variable {o : Outline β} {r : Roster β} {slot : Nat} {b : Block β} {supply : Supply}

theorem isEmpty_eq (h : o.Matches r) : r.ready.isEmpty = o.ready.isEmpty := by
  have hlength := congrArg List.length h.ready
  rw [List.length_map, List.length_map] at hlength
  rw [Bool.eq_iff_iff, List.isEmpty_iff_length_eq_zero, List.isEmpty_iff_length_eq_zero, hlength]

theorem length_waiting (h : o.Matches r) (line : Line) :
    (r.waiting line).length = (o.waiting line).length := by
  have hlength := congrArg List.length (h.waiting line)
  rwa [List.length_map, List.length_map] at hlength

/-!
# Changing what is known of a thread
-/

theorem modify (h : o.Matches r) (hnumbered : o.table.Numbered o.nextId)
    (hget : o.table.get? slot = some b) {f : Block β → Block β}
    {g : Roster.Record β → Roster.Record β}
    (hid : (f b).id = b.id) (hrecord : (f b).record = g b.record) :
    (o.modify slot f).Matches (r.modify b.id g) := by
  have hidAt := idAt_modify hget hid
  have hkeys : (r.modify b.id g).threads.keys = r.threads.keys :=
    Roster.keys_change r.threads b.id g
  refine { h with live := ?_, found := ?_, known := ?_, ready := ?_, waiting := ?_ }
  · rw [Roster.live, hkeys]
    exact h.live
  · intro other c hc
    unfold Outline.modify at hc
    simp only [Table.get?_modify] at hc
    show (Roster.change r.threads b.id g).lookup c.id = some c.record
    rw [Roster.lookup_change]
    split at hc
    · rw [hget] at hc
      injection hc with hc
      have hfound : r.threads.lookup b.id = some b.record := h.found hget
      rw [← hc, hid, if_pos rfl, hfound, hrecord]
      rfl
    · next hne =>
        have hother : c.id ≠ b.id := fun heq => hne (hnumbered.unique hc hget heq)
        rw [if_neg hother]
        exact h.found hc
  · rw [hkeys, hidAt]
    exact h.known
  · rw [hidAt]
    exact h.ready
  · rw [hidAt]
    exact h.waiting

theorem set (h : o.Matches r) (hnumbered : o.table.Numbered o.nextId)
    (hget : o.table.get? slot = some b) {f : Block β → Block β} (hid : (f b).id = b.id) :
    (o.modify slot f).Matches (r.set b.id (f b).record) := by
  have hchanged := h.modify hnumbered hget (g := fun _ => (f b).record) hid rfl
  have hfound : r.threads.lookup b.id = some b.record := h.found hget
  have hset : r.modify b.id (fun _ => (f b).record) = r.set b.id (f b).record := by
    unfold Roster.modify Roster.change
    rw [hfound]
    rfl
  rwa [hset] at hchanged

/-!
# Queues
-/

theorem makeReady (h : o.Matches r) (hnumbered : o.table.Numbered o.nextId)
    (hget : o.table.get? slot = some b) : (o.makeReady slot).Matches (r.makeReady b.id) := by
  have hmarked := h.modify hnumbered hget (f := Block.ready) (g := Roster.Record.ready) rfl rfl
  have hslot : (o.modify slot Block.ready).idAt slot = some b.id := by
    apply idAt_of_get? (b := b.ready)
    simp [Outline.modify, hget]
  have hready : r.ready.map some = o.ready.map (o.modify slot Block.ready).idAt := hmarked.ready
  refine { hmarked with ready := ?_ }
  show (r.ready ++ [b.id]).map some = (o.ready ++ [slot]).map (o.modify slot Block.ready).idAt
  rw [List.map_append, List.map_append, hready, List.map_singleton, List.map_singleton, hslot]

theorem park (h : o.Matches r) (hnumbered : o.table.Numbered o.nextId)
    (hget : o.table.get? slot = some b) (line : Line) :
    (o.park slot line).Matches (r.park b.id line) := by
  have hmarked := h.modify hnumbered hget (f := fun b => b.park line)
    (g := fun t => { t with state := .blockedOnInterrupt }) rfl rfl
  have hslot : (o.modify slot fun b => b.park line).idAt slot = some b.id := by
    apply idAt_of_get? (b := b.park line)
    simp [Outline.modify, hget]
  refine { hmarked with waiting := ?_ }
  intro other
  have hwaiting : (r.waiting other).map some =
      (o.waiting other).map (o.modify slot fun b => b.park line).idAt := hmarked.waiting other
  show (Function.update r.waiting line (r.waiting line ++ [b.id]) other).map some =
    (Function.update o.waiting line (o.waiting line ++ [slot]) other).map
      (o.modify slot fun b => b.park line).idAt
  cases hother : decide (other = line) with
  | true =>
      have heq := of_decide_eq_true hother
      subst heq
      rw [Function.update_self, Function.update_self, List.map_append, List.map_append, hwaiting,
        List.map_singleton, List.map_singleton, hslot]
  | false =>
      have hne := of_decide_eq_false hother
      rw [Function.update_of_ne hne, Function.update_of_ne hne]
      exact hwaiting

theorem await (h : o.Matches r) (hnumbered : o.table.Numbered o.nextId)
    (hget : o.table.get? slot = some b) {target : Handle} {c : Block β}
    (htarget : o.table.lookup target = some c) (hne : target.slot ≠ slot) :
    (o.await slot ⟨slot, b.id⟩ target).Matches (r.await b.id target.id) := by
  rcases Table.lookup_eq_some_iff.mp htarget with ⟨hc, hid⟩
  have hjoined := h.modify hnumbered hc (f := fun c => { c with joiner := some ⟨slot, b.id⟩ })
    (g := fun t => { t with joiner := some b.id }) rfl rfl
  have hnumbered' : (o.modify target.slot fun c =>
      { c with joiner := some ⟨slot, b.id⟩ }).table.Numbered o.nextId :=
    hnumbered.modify target.slot fun _ => rfl
  have hget' : (o.modify target.slot fun c =>
      { c with joiner := some ⟨slot, b.id⟩ }).table.get? slot = some b := by
    show (o.table.modify target.slot _).get? slot = some b
    rw [Table.get?_modify_of_ne _ _ hne.symm, hget]
  rw [hid] at hjoined
  exact hjoined.modify hnumbered' hget' (f := fun b => { b with state := .blockedOnJoin })
    (g := fun t => { t with state := .blockedOnJoin }) rfl rfl

theorem mem_waiting_iff (h : o.Matches r) (hnumbered : o.table.Numbered o.nextId)
    (hget : o.table.get? slot = some b) (line : Line) :
    b.id ∈ r.waiting line ↔ slot ∈ o.waiting line := by
  have hslots : some b.id ∈ (o.waiting line).map o.idAt ↔ b.id ∈ r.waiting line := by
    rw [← h.waiting]
    simp
  rw [← hslots, List.mem_map]
  constructor
  · rintro ⟨other, hother, hid⟩
    rcases Option.map_eq_some_iff.mp hid with ⟨c, hc, hcid⟩
    rw [hnumbered.unique hget hc hcid.symm]
    exact hother
  · intro hmem
    exact ⟨slot, hmem, idAt_of_get? hget⟩

theorem fire (h : o.Matches r) (hnumbered : o.table.Numbered o.nextId) (line : Line) :
    (o.wake line).Matches (r.fire line) := by
  have hidAt := idAt_wake o line
  have hkeys : (r.fire line).threads.keys = r.threads.keys :=
    Roster.keys_foldl_change r.threads Roster.Record.ready _
  have hfind : ∀ id, (r.fire line).find? id =
      (r.find? id).map fun t => if id ∈ r.waiting line then t.ready else t :=
    fun id => Roster.lookup_foldl_change r.threads Roster.Record.ready (fun _ => rfl) _ id
  rcases wakeMany_eq o line (o.waiting line).length with ⟨slots, ready, waiting, hwoken⟩
  constructor
  · simp only [wake, hwoken]
    exact h.config
  · simp only [wake, hwoken]
    exact h.limit
  · rw [Roster.live, hkeys]
    simp only [wake, hwoken]
    exact h.live
  · intro other c' hc'
    rw [o.wake_get?] at hc'
    rcases Option.map_eq_some_iff.mp hc' with ⟨c, hc, rfl⟩
    have hmem := h.mem_waiting_iff hnumbered hc line
    cases hwaits : decide (other ∈ o.waiting line) with
    | true =>
        have hslot := of_decide_eq_true hwaits
        rw [if_pos hslot]
        show (r.fire line).find? c.id = _
        rw [hfind, h.found hc, Option.map_some, if_pos (hmem.mpr hslot)]
        rfl
    | false =>
        have hslot := of_decide_eq_false hwaits
        rw [if_neg hslot, hfind, h.found hc, Option.map_some, if_neg fun hid => hslot (hmem.mp hid)]
  · rw [hkeys, hidAt]
    exact h.known
  · rw [hidAt, o.wake_ready, List.map_append, ← h.ready, ← h.waiting, ← List.map_append]
    rfl
  · intro other
    rw [hidAt, o.wake_waiting]
    show (Function.update r.waiting line [] other).map some = _
    cases hother : decide (other = line) with
    | true =>
        have heq := of_decide_eq_true hother
        rw [heq, Function.update_self, if_pos rfl]
        rfl
    | false =>
        have hne := of_decide_eq_false hother
        rw [Function.update_of_ne hne, if_neg hne]
        exact h.waiting other
  · simp only [wake, hwoken]
    exact h.pool
  · simp only [wake, hwoken]
    exact h.nextId
  · simp only [wake, hwoken]
    exact h.graveyard
  · simp only [wake, hwoken, Roster.fire, h.counters, h.length_waiting]

/-!
# Memory
-/

theorem reserve (h : o.Matches r) (supply : Supply) : (o.reserve supply).Matches r := by
  rcases Table.snd_reserve o.table supply.slots supply.vacant with ⟨slotRoom, vacantRoom, hroom⟩
  rw [Outline.reserve, hroom]
  exact { h with }

theorem withPool (h : o.Matches r) (pool : Pool) :
    { o with pool := pool }.Matches { r with pool := pool } :=
  { h with pool := rfl }

theorem release (h : o.Matches r) (supply : Supply) (stack : Option Stack) :
    (o.release supply stack).Matches (r.release supply stack) := by
  cases stack with
  | none => exact h
  | some stack =>
      unfold Outline.release Roster.release
      rw [h.pool]
      exact h.withPool _

theorem withGraveyard (h : o.Matches r) (graveyard : Option Stack) :
    { o with graveyard := graveyard }.Matches { r with graveyard := graveyard } :=
  { h with graveyard := rfl }

theorem retire (h : o.Matches r) (supply : Supply) (stack : Option Stack) :
    (o.retire supply stack).Matches (r.retire supply stack) := by
  cases stack with
  | none => exact h
  | some stack =>
      unfold Outline.retire Roster.retire
      rw [h.graveyard]
      exact (h.withGraveyard (some stack)).release supply o.graveyard

theorem withCounters (h : o.Matches r) (counters : Counters) :
    { o with counters := counters }.Matches { r with counters := counters } :=
  { h with counters := rfl }

theorem countSpawned (h : o.Matches r) :
    { o with counters := { o.counters with spawned := o.counters.spawned + 1 } }.Matches
      r.countSpawned := by
  unfold Roster.countSpawned
  rw [h.counters]
  exact h.withCounters _

theorem countReclaimed (h : o.Matches r) : o.countReclaimed.Matches r.countReclaimed := by
  unfold Outline.countReclaimed Roster.countReclaimed
  rw [h.counters]
  exact h.withCounters _

theorem countExited (h : o.Matches r) : o.countExited.Matches r.countExited := by
  unfold Outline.countExited Roster.countExited
  rw [h.counters]
  exact h.withCounters _

/-!
# Arrivals and departures
-/

theorem erase (h : o.Matches r) (hnumbered : o.table.Numbered o.nextId)
    (hget : o.table.get? slot = some b) (hready : slot ∉ o.ready)
    (hwaiting : ∀ line, slot ∉ o.waiting line) :
    { o with table := (o.table.remove slot).2 }.Matches (r.erase b.id) := by
  have hkept : ∀ {other id}, other ≠ slot → o.idAt other = some id →
      ({ o with table := (o.table.remove slot).2 } : Outline β).idAt other = some id := by
    intro other id hne hid
    rw [← hid]
    unfold idAt
    rw [Table.get?_remove, if_neg hne]
  have hkeys : (r.erase b.id).threads.keys = r.threads.keys.erase b.id := Finmap.keys_erase _ _
  have hmem : b.id ∈ r.threads.keys :=
    Finmap.mem_keys.mpr (Finmap.mem_of_lookup_eq_some (h.found hget))
  refine { h with limit := ?_, live := ?_, found := ?_, known := ?_, ready := ?_, waiting := ?_ }
  · show (o.table.remove slot).2.limit = _
    rw [Table.limit_remove]
    exact h.limit
  · show _ = (o.table.remove slot).2.live
    rw [Roster.live, hkeys, Finset.card_erase_of_mem hmem, Table.live_remove hget, ← h.live]
    rfl
  · intro other c hc
    simp only [Table.get?_remove] at hc
    split at hc
    · cases hc
    · next hne =>
        have hother : c.id ≠ b.id := fun heq => hne (hnumbered.unique hc hget heq)
        exact (Finmap.lookup_erase_ne hother).trans (h.found hc)
  · intro id hid
    rw [hkeys] at hid
    rcases Finset.mem_erase.mp hid with ⟨hother, hid⟩
    rcases h.known hid with ⟨other, hslot⟩
    refine ⟨other, hkept ?_ hslot⟩
    rintro rfl
    rw [idAt_of_get? hget] at hslot
    injection hslot with hslot
    exact hother hslot.symm
  · refine idAt_congr h.ready fun other id hother hid => hkept ?_ hid
    rintro rfl
    exact hready hother
  · intro line
    refine idAt_congr (h.waiting line) fun other id hother hid => hkept ?_ hid
    rintro rfl
    exact hwaiting line hother

theorem reclaim (h : o.Matches r) (hnumbered : o.table.Numbered o.nextId)
    (hget : o.table.get? slot = some b) (hready : slot ∉ o.ready)
    (hwaiting : ∀ line, slot ∉ o.waiting line) (supply : Supply) :
    (o.reclaim supply slot b).Matches (r.reclaim supply b.id b.record) :=
  ((h.erase hnumbered hget hready hwaiting).release supply b.stack).countReclaimed

theorem bury (h : o.Matches r) (hnumbered : o.table.Numbered o.nextId)
    (hget : o.table.get? slot = some b) (hready : slot ∉ o.ready)
    (hwaiting : ∀ line, slot ∉ o.waiting line) (supply : Supply) :
    (o.bury supply slot b).Matches
      ((r.countExited.erase b.id).retire supply b.record.stack).countReclaimed :=
  ((h.countExited.erase hnumbered hget hready hwaiting).retire supply b.stack).countReclaimed

theorem enter (h : o.Matches r) (hpacked : o.table.Packed) (hnumbered : o.table.Numbered o.nextId)
    (hid : b.id = o.nextId) : (o.store b).Matches (r.enter b.record) := by
  have hget : ∀ other, (o.store b).table.get? other =
      if other = o.table.nextSlot then some b else o.table.get? other :=
    hpacked.get?_insert b
  have hfresh : r.nextId ∉ r.threads.keys := by
    intro hmem
    rcases h.known hmem with ⟨other, hother⟩
    rcases Option.map_eq_some_iff.mp hother with ⟨c, hc, hcid⟩
    have hlt := hnumbered.lt hc
    rw [hcid, h.nextId] at hlt
    exact Nat.lt_irrefl _ hlt
  have hkeys : (r.enter b.record).threads.keys = insert r.nextId r.threads.keys :=
    Roster.keys_insert r.threads r.nextId b.record
  refine { h with limit := ?_, live := ?_, found := ?_, known := ?_, ready := ?_, waiting := ?_,
                  nextId := ?_ }
  · show (o.table.insert b).2.limit = _
    rw [Table.limit_insert]
    exact h.limit
  · show _ = (o.table.insert b).2.live
    rw [Roster.live, hkeys, Finset.card_insert_of_notMem hfresh, Table.live_insert, ← h.live]
    rfl
  · intro other c hc
    rw [hget] at hc
    show (r.threads.insert r.nextId b.record).lookup c.id = _
    split at hc
    · injection hc with hc
      rw [← hc, hid, h.nextId]
      exact Finmap.lookup_insert r.threads
    · have hother : c.id ≠ r.nextId := by
        rw [h.nextId]
        exact Nat.ne_of_lt (hnumbered.lt hc)
      rw [Finmap.lookup_insert_of_ne r.threads hother]
      exact h.found hc
  · intro id hmem
    rw [hkeys] at hmem
    rcases Finset.mem_insert.mp hmem with hnew | hold
    · refine ⟨o.table.nextSlot, ?_⟩
      rw [hnew, h.nextId, ← hid]
      apply idAt_of_get?
      rw [hget, if_pos rfl]
    · rcases h.known hold with ⟨other, hother⟩
      exact ⟨other, idAt_store hpacked b hother⟩
  · exact idAt_congr h.ready fun other id _ => idAt_store hpacked b
  · exact fun line => idAt_congr (h.waiting line) fun other id _ => idAt_store hpacked b
  · show r.nextId + 1 = o.nextId + 1
    rw [h.nextId]

end Matches

end Outline

end Coop
