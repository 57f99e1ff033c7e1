import Mathlib.Data.List.Perm.Subperm
import Coop.Proofs.Scheduler.Sound

/-!
# Steps of work, seen through outlines

Each step of an operation changes a scheduler and its outline alike.  The
statements here say so, one for each step; what they ask of the outline is what
keeps the links of the queues in order.
-/

namespace Coop

open Thread (Block Family Handle Id Lane Queue Spec Table)

/-!
# The loop that wakes a line
-/

namespace Work

variable {β : Type} {line : Line} {w w' w'' : Work β} {count : Nat}

/-- So many iterations take all the waiters of a line out, one by one, and make them ready. -/
inductive Drains (line : Line) : Work β → Nat → Work β → Prop where
  | stop {w w' : Work β} : w.takeWaiter line = (none, w') → Drains line w 0 w'
  | next {w w' w'' : Work β} {slot count : Nat} : w.takeWaiter line = (some slot, w') →
      Drains line ((w'.modify slot Block.unpark).makeReady slot) count w'' →
        Drains line w (count + 1) w''

theorem takeWaiter_of_head (h : (w.scheduler.waits.bucket line).head = none) :
    w.takeWaiter line = (none, w) := by
  have hbucket : w.scheduler.waits.setBucket line (w.scheduler.waits.bucket line) =
      w.scheduler.waits := by
    simp [Waits.setBucket, Waits.bucket]
  unfold takeWaiter
  simp only [Waits.pop, Queue.pop, Queue.popFaults, h, hbucket]
  simp [expect, update]

theorem eq_of_takeWaiter (h : w.takeWaiter line = (none, w')) : w' = w := by
  cases hhead : (w.scheduler.waits.bucket line).head with
  | none =>
      rw [takeWaiter_of_head hhead] at h
      injection h with _ hw
      exact hw.symm
  | some slot => simp [takeWaiter, Waits.pop, Queue.pop, hhead] at h

theorem Drains.drain_eq (h : Drains line w count w') {fuel : Nat} (hfuel : count ≤ fuel) :
    w.drain line fuel = (count, w') := by
  induction h generalizing fuel with
  | stop htaken =>
      cases fuel with
      | zero => rw [eq_of_takeWaiter htaken, drain]
      | succ fuel => rw [drain, htaken]
  | next htaken _ ih =>
      cases fuel with
      | zero => cases hfuel
      | succ fuel =>
          have hrest := ih (Nat.le_of_succ_le_succ hfuel)
          simp only [drain, htaken, hrest]

theorem Drains.unique {count' : Nat} (h : Drains line w count w') (h' : Drains line w count' w'') :
    count' = count ∧ w'' = w' := by
  have hdrain := h.drain_eq (Nat.le_max_left count count')
  rw [h'.drain_eq (Nat.le_max_right count count')] at hdrain
  injection hdrain with hcount hw
  exact ⟨hcount, hw⟩

end Work

namespace Represents

variable {β : Type} {s : Scheduler β} {w : Work β} {o : Outline β}

/-!
# Changes that no queue notices
-/

theorem withTable {t : Table β} (h : Represents s o)
    (hsame : ∀ lane slot, t.link lane slot = s.table.link lane slot) :
    Represents { s with table := t } { o with table := t.bare } :=
  { h with
    table := rfl
    ready := h.ready.congr (hsame .ready)
    waiting := h.waiting.congr (hsame .wait)
    tidy := fun lane => (h.tidy lane).congr (hsame lane) }

theorem modify (h : Represents s o) (slot : Nat) {f : Block β → Block β}
    (hbare : ∀ b, (f b).bare = f b.bare) (hlink : ∀ b lane, (f b).link lane = b.link lane) :
    Represents { s with table := s.table.modify slot f } (o.modify slot f) := by
  have hsame := h.withTable (t := s.table.modify slot f) fun lane other =>
    Table.link_modify (fun b => hlink b lane) slot other
  rw [Table.bare_modify slot hbare, ← h.table] at hsame
  exact hsame

theorem reserve (h : Represents w.scheduler o) (supply : Supply) :
    (w.reserve supply).1 = (o.table.reserve supply.slots supply.vacant).1 ∧
      Represents (w.reserve supply).2.scheduler (o.reserve supply) := by
  have hbare := Table.bare_reserve w.scheduler.table supply.slots supply.vacant
  rw [← h.table] at hbare
  refine ⟨hbare.2, ?_⟩
  have hsame := h.withTable (t := (w.scheduler.table.reserve supply.slots supply.vacant).2)
    (Table.link_reserve w.scheduler.table supply.slots supply.vacant)
  rw [hbare.1] at hsame
  exact hsame

theorem insert (h : Represents w.scheduler o) (hpacked : w.scheduler.table.Packed) {b : Block β}
    (hb : b.bare = b) :
    (w.insert b).1 = o.table.nextSlot ∧
      Represents (w.insert b).2.scheduler { o with table := (o.table.insert b).2 } := by
  constructor
  · rw [h.table, Table.nextSlot_bare]
    exact Table.fst_insert w.scheduler.table b
  · have hsame := h.withTable (t := (w.scheduler.table.insert b).2)
      (Table.link_insert hpacked hb)
    rw [Table.bare_insert, hb, ← h.table] at hsame
    exact hsame

theorem remove (h : Represents w.scheduler o) {slot : Nat} {b : Block β}
    (hget : o.table.get? slot = some b) (hready : slot ∉ o.ready)
    (hwaiting : ∀ line, slot ∉ o.waiting line) :
    ∃ b', (w.remove slot).1 = some b' ∧ b'.bare = b ∧
      Represents (w.remove slot).2.scheduler { o with table := (o.table.remove slot).2 } := by
  have hlink : ∀ lane, w.scheduler.table.link lane slot = {} := by
    intro lane
    apply h.tidy lane slot
    cases lane with
    | ready => exact h.ready.unlinked slot fun _ => hready
    | wait => exact h.waiting.unlinked slot hwaiting
  have hsame := h.withTable (t := (w.scheduler.table.remove slot).2) fun lane other =>
    Table.link_remove (hlink lane) other
  rw [Table.bare_remove, ← h.table] at hsame
  rw [h.get?_eq] at hget
  rcases Option.map_eq_some_iff.mp hget with ⟨b', hb', hbare⟩
  refine ⟨b', ?_, hbare, hsame⟩
  rw [← hb']
  exact Table.fst_remove w.scheduler.table slot

theorem releaseAny (h : Represents w.scheduler o) (supply : Supply) (stack : Option Stack) :
    Represents (w.releaseAny supply stack).scheduler (o.release supply stack) := by
  cases stack with
  | none => exact h
  | some stack =>
      refine { h with pool := ?_ }
      show o.pool.release supply.cache stack = w.scheduler.pool.release supply.cache stack
      rw [h.pool]

theorem retire (h : Represents w.scheduler o) (supply : Supply) (stack : Stack) :
    Represents (w.retire supply stack).scheduler (o.retire supply (some stack)) := by
  have haside : Represents (w.update fun s => { s with graveyard := some stack }).scheduler
      { o with graveyard := some stack } := { h with graveyard := rfl }
  show Represents (Work.releaseAny _ supply w.scheduler.graveyard).scheduler _
  rw [← h.graveyard]
  exact haside.releaseAny supply o.graveyard

theorem checkStack (h : Represents w.scheduler o) (slot : Nat) :
    Represents (w.checkStack slot).scheduler o := by
  unfold Work.checkStack
  cases w.scheduler.table.get? slot with
  | none => exact h
  | some b =>
      simp only
      split
      · exact h
      · exact h

theorem count (h : Represents w.scheduler o) (f : Counters → Counters) :
    Represents (w.count f).scheduler { o with counters := f o.counters } := by
  refine { h with counters := ?_ }
  show f o.counters = f w.scheduler.counters
  rw [h.counters]

/-!
# Joining and leaving the ready queue
-/

private theorem update_unit {α : Type} (a b : α) :
    Function.update (fun _ : Unit => a) () b = fun _ => b := by
  funext u
  cases u
  simp

theorem makeReady (h : Represents w.scheduler o) {slot : Nat} {b : Block β}
    (hget : o.table.get? slot = some b) (hready : slot ∉ o.ready) :
    Represents (w.makeReady slot).scheduler (o.makeReady slot) := by
  have hmarked := h.modify slot (f := Block.ready) (fun _ => rfl) fun _ lane => by
    cases lane <;> rfl
  have hslot : (w.scheduler.table.modify slot Block.ready).isOccupied slot = true := by
    rw [Table.isOccupied_modify]
    exact h.isOccupied_of_get? hget
  have hpush := hmarked.ready.push () hslot fun _ => hready
  rw [update_unit, update_unit] at hpush
  refine { hmarked with table := ?_, ready := hpush, waiting := ?_, tidy := ?_ }
  · exact hmarked.table.trans (Queue.bare_push _ _ slot).symm
  · exact hmarked.waiting.congr (Queue.link_push_of_lane_ne (by decide) _ _ slot)
  · intro lane
    cases lane with
    | ready => exact (hmarked.tidy .ready).push (hmarked.ready.holds ()) hslot hready
    | wait => exact (hmarked.tidy .wait).congr (Queue.link_push_of_lane_ne (by decide) _ _ slot)

theorem takeReady (h : Represents w.scheduler o) {slot : Nat} {rest : List Nat}
    (hready : o.ready = slot :: rest) :
    w.takeReady.1 = some slot ∧ Represents w.takeReady.2.scheduler { o with ready := rest } := by
  have hholds := h.ready.holds ()
  have hhead : w.scheduler.ready.head = some slot := by
    rw [hholds.head, hready]
    rfl
  have hpop : w.scheduler.ready.pop w.scheduler.table =
      (some slot, (w.scheduler.ready.remove w.scheduler.table slot).2) := by
    simp [Queue.pop, hhead]
  have hfront : o.ready = [] ++ slot :: rest := hready
  have hremove := h.ready.remove () hfront
  rw [update_unit, update_unit] at hremove
  constructor
  · simp [Work.takeReady, hpop]
  · simp only [Work.takeReady, hpop]
    refine { h with table := ?_, ready := hremove, waiting := ?_, tidy := ?_ }
    · rw [h.table]
      exact (Queue.bare_remove _ _ slot).symm
    · exact h.waiting.congr (Queue.link_remove_of_lane_ne (by decide) _ _ slot)
    · intro lane
      cases lane with
      | ready =>
          rw [hfront] at hholds
          exact (h.tidy .ready).remove hholds
      | wait => exact (h.tidy .wait).congr (Queue.link_remove_of_lane_ne (by decide) _ _ slot)

theorem unready (h : Represents w.scheduler o) {slot : Nat} (hready : slot ∉ o.ready) :
    Represents (w.unready slot).2.scheduler o := by
  have hremove := Queue.remove_eq_of_unlinked w.scheduler.ready (h.tidy .ready)
    (h.ready_unlinked hready)
  simp only [Work.unready, hremove]
  exact h

theorem dispatch (h : Represents w.scheduler o) (source : Handle) {slot : Nat} {rest : List Nat}
    {b : Block β} (hready : o.ready = slot :: rest) (hget : o.table.get? slot = some b) :
    (w.dispatch source).result = .ok ⟨source, ⟨slot, b.id⟩⟩ ∧
      Represents (w.dispatch source).scheduler (o.dispatch slot rest) := by
  rcases h.takeReady hready with ⟨hslot, htaken⟩
  have hfirst : w.takeReady = (some slot, w.takeReady.2) := by
    rw [← hslot]
  have hget' := htaken.get?_eq slot
  rw [show ({ o with ready := rest } : Outline β).table = o.table from rfl, hget] at hget'
  rcases Option.map_eq_some_iff.mp hget'.symm with ⟨b', hb', hbare⟩
  have hid : b'.id = b.id := by
    rw [← hbare]
    rfl
  have hrun := htaken.modify slot (f := Block.run) (fun _ => rfl) fun _ lane => by
    cases lane <;> rfl
  unfold Work.dispatch
  rw [hfirst]
  simp only [hb']
  constructor
  · rw [← hid]
    rfl
  · refine { hrun with current := rfl, counters := ?_ }
    have hcounters := htaken.counters
    simp only at hcounters
    simp only [Outline.dispatch, hcounters]
    rfl

/-!
# Joining and leaving the buckets
-/

private theorem bucket_setBucket (waits : Waits) (line : Line) (q : Queue .wait) :
    (waits.setBucket line q).bucket = Function.update waits.bucket line q := by
  funext other
  by_cases hother : other = line
  · subst hother
    simp
  · rw [Function.update_of_ne hother, Waits.bucket_setBucket_of_ne waits q hother]

theorem park (h : Represents w.scheduler o) {slot : Nat} {b : Block β} (line : Line)
    (hget : o.table.get? slot = some b) (hwaiting : ∀ line, slot ∉ o.waiting line) :
    Represents (w.park slot line).scheduler (o.park slot line) := by
  have hmarked := h.modify slot (f := fun b => b.park line) (fun _ => rfl) fun _ lane => by
    cases lane <;> rfl
  have hslot : (w.scheduler.table.modify slot fun b => b.park line).isOccupied slot = true := by
    rw [Table.isOccupied_modify]
    exact h.isOccupied_of_get? hget
  have hpush := hmarked.waiting.push line hslot hwaiting
  refine { hmarked with table := ?_, ready := ?_, waiting := ?_, tidy := ?_ }
  · exact hmarked.table.trans (Queue.bare_push _ _ slot).symm
  · exact hmarked.ready.congr (Queue.link_push_of_lane_ne (by decide) _ _ slot)
  · show Family _ (Waits.setBucket _ line _).bucket _
    rw [bucket_setBucket]
    exact hpush
  · intro lane
    cases lane with
    | ready => exact (hmarked.tidy .ready).congr (Queue.link_push_of_lane_ne (by decide) _ _ slot)
    | wait => exact (hmarked.tidy .wait).push (hmarked.waiting.holds line) hslot (hwaiting line)

theorem takeWaiter (h : Represents w.scheduler o) {line : Line} {slot : Nat} {rest : List Nat}
    (hwaiting : o.waiting line = slot :: rest) :
    (w.takeWaiter line).1 = some slot ∧
      Represents (w.takeWaiter line).2.scheduler
        { o with waiting := Function.update o.waiting line rest } := by
  have hholds := h.waiting.holds line
  have hhead : (w.scheduler.waits.bucket line).head = some slot := by
    rw [hholds.head, hwaiting]
    rfl
  have hpop : (w.scheduler.waits.bucket line).pop w.scheduler.table =
      (some slot, ((w.scheduler.waits.bucket line).remove w.scheduler.table slot).2) := by
    simp [Queue.pop, hhead]
  have hfront : o.waiting line = [] ++ slot :: rest := hwaiting
  have hremove := h.waiting.remove line hfront
  simp only [Work.takeWaiter, Waits.pop, hpop]
  refine ⟨trivial, { h with table := ?_, ready := ?_, waiting := ?_, tidy := ?_ }⟩
  · rw [h.table]
    exact (Queue.bare_remove _ _ slot).symm
  · exact h.ready.congr (Queue.link_remove_of_lane_ne (by decide) _ _ slot)
  · show Family _ (Waits.setBucket _ line _).bucket _
    rw [bucket_setBucket]
    exact hremove
  · intro lane
    cases lane with
    | ready => exact (h.tidy .ready).congr (Queue.link_remove_of_lane_ne (by decide) _ _ slot)
    | wait =>
        rw [hfront] at hholds
        exact (h.tidy .wait).remove hholds

/-!
# Reclaiming, and waking a joiner
-/

theorem allocate (h : Represents w.scheduler o) (supply : Supply) (bytes : Nat) :
    (w.allocate supply bytes).1 = (o.pool.allocateBytes supply.stack bytes).1 ∧
      Represents (w.allocate supply bytes).2.scheduler (o.allocate supply bytes) := by
  have hpool := h.pool
  constructor
  · rw [hpool]
    rfl
  · refine { h with pool := ?_ }
    show (o.pool.allocateBytes supply.stack bytes).2 = _
    rw [hpool]
    rfl

theorem reclaim (h : Represents w.scheduler o) (supply : Supply) {slot : Nat} {b : Block β}
    (hget : o.table.get? slot = some b) (hready : slot ∉ o.ready)
    (hwaiting : ∀ line, slot ∉ o.waiting line) :
    Represents (w.reclaim supply slot).scheduler (o.reclaim supply slot b) := by
  rcases h.remove hget hready hwaiting with ⟨b', hb', hbare, hremoved⟩
  have hfirst : w.remove slot = (some b', (w.remove slot).2) := by
    rw [← hb']
  have hstack : b'.stack = b.stack := by
    rw [← hbare]
    rfl
  unfold Work.reclaim
  rw [hfirst]
  simp only
  rw [hstack]
  exact (hremoved.releaseAny supply b.stack).count fun c => { c with reclaimed := c.reclaimed + 1 }

theorem bury (h : Represents w.scheduler o) (supply : Supply) {slot : Nat} {b : Block β}
    (hget : o.table.get? slot = some b) (hready : slot ∉ o.ready)
    (hwaiting : ∀ line, slot ∉ o.waiting line) :
    Represents (w.bury supply slot).scheduler
      (({ o with table := (o.table.remove slot).2 }.retire supply b.stack).countReclaimed) := by
  rcases h.remove hget hready hwaiting with ⟨b', hb', hbare, hremoved⟩
  have hfirst : w.remove slot = (some b', (w.remove slot).2) := by
    rw [← hb']
  have hstack : b'.stack = b.stack := by
    rw [← hbare]
    rfl
  unfold Work.bury
  rw [hfirst]
  simp only
  rw [hstack]
  cases b.stack with
  | none => exact hremoved.count fun c => { c with reclaimed := c.reclaimed + 1 }
  | some stack =>
      exact (hremoved.retire supply stack).count fun c => { c with reclaimed := c.reclaimed + 1 }

theorem wakeJoiner (h : Represents w.scheduler o) (id : Id) {j : Handle} {b : Block β}
    (hlookup : o.table.lookup j = some b) (hready : j.slot ∉ o.ready) :
    Represents (w.wakeJoiner id (some j)).scheduler (o.makeReady j.slot) := by
  have hlookup' := h.lookup_eq j
  rw [hlookup] at hlookup'
  rcases Option.map_eq_some_iff.mp hlookup'.symm with ⟨b', hb', -⟩
  have hget := (Table.lookup_eq_some_iff.mp hlookup).1
  simp only [Work.wakeJoiner, hb', Option.isSome_some, if_true]
  exact h.makeReady hget hready

/-!
# Waking the waiters of lines
-/

theorem waiting_length_le (h : Represents s o) {runner : Option Nat} (hplaced : o.Placed runner)
    (line : Line) : (o.waiting line).length ≤ s.table.slots.size := by
  have hsub : o.waiting line ⊆ List.range s.table.slots.size := by
    intro slot hslot
    rcases hplaced.get?_of_mem_waiting hslot with ⟨b, hget, -⟩
    rw [h.get?_eq] at hget
    rcases Option.map_eq_some_iff.mp hget with ⟨b', hb', -⟩
    exact List.mem_range.mpr (Table.lt_size_of_get? hb')
  have hle := (List.Nodup.subperm (hplaced.waiting_nodup line) hsub).length_le
  rwa [List.length_range] at hle

theorem wakeFirst {runner : Option Nat} (h : Represents w.scheduler o) (ho : o.Orderly runner)
    {line : Line} {slot : Nat} {rest : List Nat} (hwaiting : o.waiting line = slot :: rest) :
    w.takeWaiter line = (some slot, (w.takeWaiter line).2) ∧ slot ∉ o.ready ∧
      Represents ((w.takeWaiter line).2.modify slot Block.unpark).scheduler
        (({ o with waiting := Function.update o.waiting line rest } : Outline β).modify slot
          Block.unpark) ∧
      Represents (((w.takeWaiter line).2.modify slot Block.unpark).makeReady slot).scheduler
        (o.wakeFirst line) := by
  rcases h.takeWaiter hwaiting with ⟨hslot, htaken⟩
  rcases ho.placed.get?_of_waiting_cons hwaiting with ⟨b, hget, hstate, -⟩
  have hready : slot ∉ o.ready := by
    rw [ho.placed.mem_ready_iff hget, hstate]
    decide
  have hunparked := htaken.modify slot (f := Block.unpark) (fun _ => rfl) fun _ lane => by
    cases lane <;> rfl
  have hget' : (o.modify slot Block.unpark).table.get? slot = some b.unpark := by
    simp [Outline.modify, hget]
  refine ⟨by rw [← hslot], hready, hunparked, ?_⟩
  rw [Outline.wakeFirst_cons hwaiting, ← Table.modify_modify o.table slot Block.unpark]
  exact Represents.makeReady (w := (w.takeWaiter line).2.modify slot Block.unpark)
    hunparked hget' hready

theorem drains {runner : Option Nat} (h : Represents w.scheduler o) (ho : o.Orderly runner)
    (line : Line) :
    ∃ w', w.Drains line (o.waiting line).length w' ∧
      Represents w'.scheduler (o.wakeMany line (o.waiting line).length) := by
  generalize hwaiting : o.waiting line = slots
  induction slots generalizing w o with
  | nil =>
      have hhead : (w.scheduler.waits.bucket line).head = none := by
        rw [(h.waiting.holds line).head, hwaiting]
        rfl
      exact ⟨w, .stop (Work.takeWaiter_of_head hhead), h⟩
  | cons slot rest ih =>
      rcases h.wakeFirst ho hwaiting with ⟨hfirst, -, -, hwoken⟩
      have hwaiting' : (o.wakeFirst line).waiting line = rest := by
        rw [Outline.wakeFirst_cons hwaiting]
        simp
      rcases ih hwoken (ho.wakeFirst line) hwaiting' with ⟨w', hdrains, hrest⟩
      exact ⟨w', .next hfirst hdrains, hrest⟩

/-- The bound on the loop is never met: it has an iteration for every waiter. -/
theorem wake {runner : Option Nat} (h : Represents w.scheduler o) (ho : o.Orderly runner)
    (line : Line) :
    w.Drains line (o.waiting line).length (w.wake line).2 ∧
      (w.wake line).1 = (o.waiting line).length ∧
        Represents (w.wake line).2.scheduler (o.wakeMany line (o.waiting line).length) := by
  rcases h.drains ho line with ⟨w', hdrains, hrest⟩
  have hwake : w.wake line = ((o.waiting line).length, w') :=
    hdrains.drain_eq (h.waiting_length_le ho.placed line)
  rw [hwake]
  exact ⟨hdrains, rfl, hrest⟩

theorem fire {runner : Option Nat} (h : Represents w.scheduler o) (ho : o.Orderly runner)
    (line : Line) :
    (Scheduler.fire w line).1 = (o.waiting line).length ∧
      Represents (Scheduler.fire w line).2.scheduler (o.wake line) := by
  rcases h.wake ho line with ⟨-, hcount, hdrained⟩
  constructor
  · exact hcount
  · have hcounted := hdrained.count fun c =>
      { c with interruptWakeups := c.interruptWakeups + (o.waiting line).length }
    have hfire : (Scheduler.fire w line).2.scheduler = ((w.wake line).2.count fun c =>
        { c with interruptWakeups := c.interruptWakeups + (w.wake line).1 }).scheduler := by
      unfold Scheduler.fire
      simp only
      split <;> rfl
    rw [hfire, show (w.wake line).1 = (o.waiting line).length from hcount]
    exact hcounted

end Represents

namespace Outline

variable {β : Type}

theorem wakeMany_waiting_of_ne (o : Outline β) {line other : Line} (hother : other ≠ line)
    (count : Nat) : (o.wakeMany line count).waiting other = o.waiting other := by
  induction count generalizing o with
  | zero => rfl
  | succ count ih =>
      refine (ih (o.wakeFirst line)).trans ?_
      unfold wakeFirst
      cases o.waiting line with
      | nil => rfl
      | cons slot rest => exact Function.update_of_ne hother _ _

theorem waiters_wake (o : Outline β) {line : Line} {lines : List Line} (hline : line ∉ lines) :
    (o.wake line).waiters lines = o.waiters lines := by
  have hsame : ∀ other ∈ lines, (o.wake line).waiting other = o.waiting other := by
    intro other hother
    have hne : other ≠ line := by
      rintro rfl
      exact hline hother
    exact wakeMany_waiting_of_ne o hne _
  rw [waiters, waiters, List.flatMap_congr hsame]

end Outline

namespace Represents

variable {β : Type} {w : Work β} {o : Outline β}

theorem fireAll {runner : Option Nat} (h : Represents w.scheduler o) (ho : o.Orderly runner)
    (lines : List Line) (hlines : lines.Nodup) :
    (Scheduler.fireAll lines w).1 = o.waiters lines ∧
      Represents (Scheduler.fireAll lines w).2.scheduler (o.wakeAll lines) := by
  induction lines generalizing w o with
  | nil => exact ⟨rfl, h⟩
  | cons line lines ih =>
      rcases List.nodup_cons.mp hlines with ⟨hline, hrest⟩
      rcases h.fire ho line with ⟨hcount, hfired⟩
      rcases ih hfired (ho.wake line) hrest with ⟨hmore, hall⟩
      constructor
      -- waking one line leaves the waiters of the others where they are
      · show (Scheduler.fire w line).1 + (Scheduler.fireAll lines (Scheduler.fire w line).2).1 = _
        rw [hcount, hmore, o.waiters_wake hline]
        simp [Outline.waiters]
      · exact hall

end Represents

end Coop
