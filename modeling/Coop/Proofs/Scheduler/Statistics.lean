import Coop.Proofs.Scheduler.Funds
import Coop.Proofs.Scheduler.Interrupts

/-!
# The statistics add up

A scheduler counts what happens, and it counts its threads.  The two agree: every
thread that came is still there or was reclaimed, and every thread that exited is
reclaimed or waits for it.  A step lets a thread come, lets one end, takes one away,
or leaves all of them as they are, and each of these keeps the books.
-/

namespace Coop

open Thread (Block Handle State Table)

namespace Thread.Table

variable {β : Type} {t t' : Table β} {slot : Nat} {b : Block β} {p : Block β → Bool}

/-!
# Counting threads
-/

def count (t : Table β) (p : Block β → Bool) : Nat :=
  t.toList.countP fun entry => p entry.2

def population (t : Table β) (state : State) : Nat :=
  t.count fun b => b.state = state

theorem count_congr (h : ∀ slot, (t'.get? slot).any p = (t.get? slot).any p) :
    t'.count p = t.count p := by
  have hnodup : ((t.toList.filter fun entry => p entry.2).map Prod.fst).Nodup :=
    (nodup_toList_fst t).sublist (List.filter_sublist.map Prod.fst)
  have hmem : ∀ slot, slot ∈ (t.toList.filter fun entry => p entry.2).map Prod.fst ↔
      ∃ b, t.get? slot = some b ∧ p b = true := by
    intro slot
    simp [mem_toList]
  have hmem' : ∀ slot, slot ∈ (t.toList.filter fun entry => p entry.2).map Prod.fst ↔
      ∃ b, t'.get? slot = some b ∧ p b = true := by
    intro slot
    rw [hmem, ← Option.any_eq_true, ← Option.any_eq_true, h]
  exact (length_eq_countP hnodup hmem').symm.trans (length_eq_countP hnodup hmem)

theorem Packed.count_insert (ht : t.Packed) (b : Block β) (p : Block β → Bool) :
    (t.insert b).2.count p = t.count p + if p b then 1 else 0 := by
  rw [count, (ht.toList_insert b).countP_eq, List.countP_cons]
  rfl

theorem count_remove (hget : t.get? slot = some b) (p : Block β → Bool) :
    t.count p = (t.remove slot).2.count p + if p b then 1 else 0 := by
  rw [count, (toList_remove hget).countP_eq, List.countP_cons]
  rfl

theorem count_same (hf : ∀ slot, (t'.get? slot).map Block.exitCode =
      (t.get? slot).map Block.exitCode) (q : Option Int32 → Bool) :
    (t'.count fun b => q b.exitCode) = t.count fun b => q b.exitCode := by
  apply count_congr
  intro slot
  have hslot := congrArg (Option.any q) (hf slot)
  rwa [Option.any_map, Option.any_map] at hslot

theorem count_modify (hget : t.get? slot = some b) (f : Block β → Block β) (p : Block β → Bool) :
    ((t.modify slot f).count p + if p b then 1 else 0) = t.count p + if p (f b) then 1 else 0 := by
  have hget' : (t.modify slot f).get? slot = some (f b) := by
    rw [get?_modify_same, hget]
    rfl
  rw [count_remove hget p, count_remove hget' p, remove_modify hget f]
  omega

end Thread.Table

namespace Outline

variable {β : Type} {o o' : Outline β} {supply : Supply} {slot : Nat} {b : Block β}
  {request : Request β} {result : Except Error (Answer β)}

/-!
# Threads come and go
-/

/-- How many threads there are whose exit code, if they have one, is of a kind. -/
def census (o : Outline β) (q : Option Int32 → Bool) : Nat :=
  o.table.count fun b => q b.exitCode

/-- The main thread was adopted, and not spawned. -/
def adopted (o : Outline β) : Nat :=
  if o.current.isSome then 1 else 0

structure Tallied (o : Outline β) : Prop where
  live : o.census (fun _ => true) + o.counters.reclaimed = o.counters.spawned + o.adopted
  ended : o.counters.exited = o.counters.reclaimed + o.census Option.isSome

/-- What an operation leaves as it is when no thread comes, ends or goes. -/
structure SameCrowd (o o' : Outline β) : Prop where
  codes : ∀ slot, (o'.table.get? slot).map Block.exitCode = (o.table.get? slot).map Block.exitCode
  spawned : o'.counters.spawned = o.counters.spawned
  exited : o'.counters.exited = o.counters.exited
  reclaimed : o'.counters.reclaimed = o.counters.reclaimed
  current : o'.current.isSome = o.current.isSome

namespace SameCrowd

theorem of_alike (h : o.Alike o') : o.SameCrowd o' := by
  rcases h with ⟨_, _, _, _, rfl⟩
  exact ⟨fun _ => rfl, rfl, rfl, rfl, rfl⟩

theorem of_modify {f : Block β → Block β} (hf : ∀ b, (f b).exitCode = b.exitCode)
    (htable : o'.table = o.table.modify slot f) (hcounters : o'.counters = o.counters)
    (hcurrent : o'.current = o.current) : o.SameCrowd o' := by
  refine ⟨?_, ?_, ?_, ?_, ?_⟩
  · intro other
    rw [htable, Table.get?_modify]
    split
    · rename_i hother
      rw [hother, Option.map_map]
      exact congrArg (fun g => (o.table.get? slot).map g) (funext hf)
    · rfl
  · rw [hcounters]
  · rw [hcounters]
  · rw [hcounters]
  · rw [hcurrent]

theorem modify (o : Outline β) (slot : Nat) {f : Block β → Block β}
    (hf : ∀ b, (f b).exitCode = b.exitCode) : o.SameCrowd (o.modify slot f) :=
  .of_modify hf rfl rfl rfl

theorem makeReady (o : Outline β) (slot : Nat) : o.SameCrowd (o.makeReady slot) :=
  .of_modify (f := Block.ready) (fun _ => rfl) rfl rfl rfl

theorem trans {o'' : Outline β} (h : o.SameCrowd o') (h' : o'.SameCrowd o'') : o.SameCrowd o'' where
  codes := fun slot => (h'.codes slot).trans (h.codes slot)
  spawned := h'.spawned.trans h.spawned
  exited := h'.exited.trans h.exited
  reclaimed := h'.reclaimed.trans h.reclaimed
  current := h'.current.trans h.current

theorem wakeAll {lines : List Line} (o : Outline β) (hlines : lines.Nodup) :
    o.SameCrowd (o.wakeAll lines) := by
  have hcounters := o.wakeAll_counters hlines
  refine ⟨?_, ?_, ?_, ?_, ?_⟩
  · intro slot
    rw [wakeAll_get?, Option.map_map]
    congr 1
    funext b
    simp only [Function.comp_apply]
    split <;> rfl
  · rw [hcounters]
  · rw [hcounters]
  · rw [hcounters]
  · rw [wakeAll_current]

theorem tallied (h : o.SameCrowd o') (ho : o.Tallied) : o'.Tallied := by
  have hcensus : ∀ q, o'.census q = o.census q := Table.count_same h.codes
  have hadopted : o'.adopted = o.adopted := by rw [adopted, h.current, adopted]
  constructor
  · rw [hcensus, h.reclaimed, h.spawned, hadopted, ho.live]
  · rw [hcensus, h.exited, h.reclaimed, ho.ended]

end SameCrowd

namespace Tallied

theorem create (config : Config) : (create config : Outline β).Tallied :=
  ⟨rfl, rfl⟩

theorem comes (h : o.Tallied)
    (hcensus : ∀ q, o'.census q = o.census q + if q none then 1 else 0)
    (hcame : o'.counters.spawned + o'.adopted = o.counters.spawned + o.adopted + 1)
    (hreclaimed : o'.counters.reclaimed = o.counters.reclaimed)
    (hexited : o'.counters.exited = o.counters.exited) : o'.Tallied := by
  have hlive := h.live
  constructor
  · rw [hcensus, hreclaimed, hcame]
    simp only [if_true]
    omega
  · rw [hcensus, hexited, hreclaimed]
    exact h.ended

theorem goes (h : o.Tallied) (code : Option Int32)
    (hcensus : ∀ q, o.census q = o'.census q + if q code then 1 else 0)
    (hcame : o'.counters.spawned + o'.adopted = o.counters.spawned + o.adopted)
    (hreclaimed : o'.counters.reclaimed = o.counters.reclaimed + 1)
    (hexited : o'.counters.exited = o.counters.exited + if code.isSome then 0 else 1) :
    o'.Tallied := by
  have hlive := h.live
  have hended := h.ended
  -- the code of whoever goes was counted before, or is counted now
  have hcounted : (if code.isSome then 1 else 0) + (if code.isSome then 0 else 1) = 1 := by
    cases code <;> rfl
  rw [hcensus] at hlive hended
  simp only [if_true] at hlive
  constructor <;> omega

theorem adopt (h : o.Tallied) (hpacked : o.table.Packed) (hcurrent : o.current = none) :
    o.adopt.Tallied := by
  have hcame : o.counters.spawned + 1 = o.counters.spawned + o.adopted + 1 := by
    rw [adopted, hcurrent]
    rfl
  exact h.comes (fun q => hpacked.count_insert (.main o.nextId) fun b => q b.exitCode) hcame rfl rfl

theorem enroll (h : o.Tallied) (hpacked : o.table.Packed) (hcode : b.exitCode = none) :
    (o.enroll b).Tallied := by
  have hcame : o.counters.spawned + 1 + o.adopted = o.counters.spawned + o.adopted + 1 :=
    Nat.add_right_comm _ _ _
  refine h.comes (fun q => ?_) hcame rfl rfl
  have hready := SameCrowd.makeReady (o.store b) o.table.nextSlot
  have hinsert := hpacked.count_insert b fun b => q b.exitCode
  rw [hcode] at hinsert
  exact (Table.count_same hready.codes q).trans hinsert

theorem reclaim (h : o.Tallied) (supply : Supply) (hget : o.table.get? slot = some b)
    (hcode : b.exitCode.isSome = true) : (o.reclaim supply slot b).Tallied := by
  refine h.goes b.exitCode (fun q => ?_) ?_ ?_ ?_
  · rw [census, census, table_reclaim]
    exact Table.count_remove hget fun b => q b.exitCode
  · rw [counters_reclaim, adopted, current_reclaim, ← adopted]
  · rw [counters_reclaim]
  · rw [counters_reclaim, hcode]
    rfl

theorem bury (h : o.Tallied) (supply : Supply) (hget : o.table.get? slot = some b)
    (hcode : b.exitCode = none) : (o.bury supply slot b).Tallied := by
  refine h.goes none (fun q => ?_) ?_ ?_ ?_
  · rw [census, census, table_bury, ← hcode]
    exact Table.count_remove hget fun b => q b.exitCode
  · rw [counters_bury, adopted, current_bury, ← adopted]
  · rw [counters_bury]
  · rw [counters_bury]
    rfl

theorem finish (h : o.Tallied) (hget : o.table.get? slot = some b) (hcode : b.exitCode = none)
    (code : Int32) (joiner : Option Handle) : (o.finish slot code joiner).Tallied := by
  have hcensus : ∀ q, (o.modify slot fun b => b.exit code).countExited.census q +
      (if q none then 1 else 0) = o.census q + if q (some code) then 1 else 0 := by
    intro q
    have hmodify := Table.count_modify hget (fun b => b.exit code) fun b => q b.exitCode
    rw [hcode] at hmodify
    exact hmodify
  have hended : (o.modify slot fun b => b.exit code).countExited.Tallied := by
    have hall := hcensus fun _ => true
    have hsome := hcensus Option.isSome
    have hlive := h.live
    have hexited := h.ended
    simp only [if_true, Option.isSome_none, Option.isSome_some, Bool.false_eq_true, if_false]
      at hall hsome
    constructor
    · show _ + o.counters.reclaimed = o.counters.spawned + o.adopted
      omega
    · show o.counters.exited + 1 = o.counters.reclaimed + _
      omega
  unfold Outline.finish
  cases joiner with
  | none => exact hended
  | some j => exact (SameCrowd.makeReady _ j.slot).tallied hended

theorem leaves {cur : Nat} {o₁ : Outline β} (h : o.Tallied) (hget : o.table.get? cur = some b)
    (hcode : b.exitCode = none) (hleaves : Leaves supply o cur b request o₁) : o₁.Tallied := by
  cases hleaves with
  | yields _ => exact (SameCrowd.makeReady o cur).tallied h
  | @parks line =>
      have hparked : o.SameCrowd (o.park cur line) :=
        .of_modify (f := fun b => b.park line) (fun _ => rfl) rfl rfl rfl
      exact hparked.tallied h
  | exits _ => exact h.finish hget hcode _ _
  | vanishes _ => exact h.bury supply hget hcode
  | @awaits target _ _ _ _ _ _ =>
      have hjoined := SameCrowd.modify o target.slot (f := fun c =>
        { c with joiner := some ⟨cur, b.id⟩ }) fun _ => rfl
      have hblocked := SameCrowd.modify (o.modify target.slot fun c =>
        { c with joiner := some ⟨cur, b.id⟩ }) cur
          (f := fun b => { b with state := .blockedOnJoin }) fun _ => rfl
      exact (hjoined.trans hblocked).tallied h

theorem dispatch (h : o.Tallied) {rest : List Nat} (hcurrent : o.current.isSome = true) :
    (o.dispatch slot rest).Tallied := by
  have hrun : ({ o with current := some slot } : Outline β).SameCrowd (o.dispatch slot rest) := by
    refine ⟨?_, rfl, rfl, rfl, rfl⟩
    exact (SameCrowd.modify o slot (f := Block.run) fun _ => rfl).codes
  refine hrun.tallied ⟨?_, h.ended⟩
  have hlive := h.live
  rw [adopted, hcurrent] at hlive
  exact hlive

end Tallied

theorem Leaves.current {cur : Nat} {o₁ : Outline β} (hleaves : Leaves supply o cur b request o₁) :
    o₁.current = o.current := by
  cases hleaves with
  | yields _ => rfl
  | parks => rfl
  | exits _ =>
      unfold finish
      cases b.joiner <;> rfl
  | vanishes _ => exact current_bury o supply cur b
  | awaits _ _ _ _ _ => rfl

theorem Step.tallied (ho : o.Sound) (hstep : o.Step supply request result o') (h : o.Tallied) :
    o'.Tallied := by
  cases hstep with
  | idle hidle => exact (SameCrowd.of_alike hidle.alike).tallied h
  | bootstrapped hcurrent _ =>
      have halike := Alike.reserve o supply
      exact ((SameCrowd.of_alike halike).tallied h).adopt (halike.sound ho).packed
        (halike.current.trans hcurrent)
  | @spawned cur spec body stack _ _ _ =>
      have halike :=
        (Alike.reserve o supply).allocate supply (o.config.stackSize spec.stackSize)
      exact ((SameCrowd.of_alike halike).tallied h).enroll (halike.sound ho).packed rfl
  | took _ _ =>
      exact (SameCrowd.modify o _ (f := fun b => { b with body := none }) fun _ => rfl).tallied h
  | @switched cur slot rest b c _ o₁ hcurrent hget hleaves _ _ =>
      have hrunning := (ho.placed.running_iff hget).mp hcurrent
      have hcode : b.exitCode = none := by
        have hexited := (ho.placed.coherent hget).exitCode
        simpa [hrunning] using hexited
      refine (h.leaves hget hcode hleaves).dispatch ?_
      rw [hleaves.current, hcurrent]
      rfl
  | delivered _ _ hlookup _ _ hcode =>
      exact h.reclaim supply (Table.lookup_eq_some_iff.mp hlookup).1 (by rw [hcode]; rfl)
  | @detached _ _ h' _ _ _ _ =>
      exact (SameCrowd.modify o h'.slot (f := Block.detach) fun _ => rfl).tallied h
  | dropped _ hlookup _ hstate =>
      have hget := (Table.lookup_eq_some_iff.mp hlookup).1
      exact h.reclaim supply hget ((ho.placed.coherent hget).exitCode.mpr hstate)
  | woken hlines =>
      exact (SameCrowd.wakeAll o (Scheduler.nodup_of_lines? hlines)).tallied h

/-!
# Events are counted
-/

/-- A counter goes up by one when an event happens. -/
def bump (happens : Bool) : Nat :=
  if happens then 1 else 0

def switched (result : Except Error (Answer β)) : Bool :=
  (result.toOption.bind Answer.transfer?).isSome

end Outline

def Request.creates {β : Type} : Request β → Bool
  | .spawn _ _ => true
  | _ => false

def Request.ends {β : Type} : Request β → Bool
  | .exit _ => true
  | _ => false

namespace Outline

variable {β : Type} {o o' : Outline β} {supply : Supply} {b : Block β} {request : Request β}
  {result : Except Error (Answer β)}

structure CountsUp (o o' : Outline β) (request : Request β) (result : Except Error (Answer β)) :
    Prop where
  spawned : o'.counters.spawned = o.counters.spawned + bump (request.creates && result.isOk)
  exited : o'.counters.exited = o.counters.exited + bump (request.ends && result.isOk)
  contextSwitches : o'.counters.contextSwitches =
    o.counters.contextSwitches + bump (switched result)

theorem Leaves.countsUp {cur : Nat} {o₁ : Outline β} (hleaves : Leaves supply o cur b request o₁) :
    o₁.counters.spawned = o.counters.spawned + bump request.creates ∧
      o₁.counters.exited = o.counters.exited + bump request.ends ∧
        o₁.counters.contextSwitches = o.counters.contextSwitches := by
  cases hleaves with
  | yields _ => exact ⟨rfl, rfl, rfl⟩
  | parks => exact ⟨rfl, rfl, rfl⟩
  | exits _ =>
      unfold finish
      cases b.joiner <;> exact ⟨rfl, rfl, rfl⟩
  | vanishes _ =>
      rw [counters_bury]
      exact ⟨rfl, rfl, rfl⟩
  | awaits _ _ _ _ _ => exact ⟨rfl, rfl, rfl⟩

structure Uneventful (request : Request β) (result : Except Error (Answer β)) : Prop where
  creates : (request.creates && result.isOk) = false
  ends : (request.ends && result.isOk) = false
  switched : switched result = false

theorem Uneventful.countsUp (h : Uneventful request result)
    (hspawned : o'.counters.spawned = o.counters.spawned)
    (hexited : o'.counters.exited = o.counters.exited)
    (hswitches : o'.counters.contextSwitches = o.counters.contextSwitches) :
    o.CountsUp o' request result := by
  constructor
  · rw [h.creates, hspawned]
    rfl
  · rw [h.ends, hexited]
    rfl
  · rw [h.switched, hswitches]
    rfl

theorem Idle.uneventful (hidle : Idle supply o request result o') : Uneventful request result := by
  cases hidle with
  | failed => exact ⟨Bool.and_false _, Bool.and_false _, rfl⟩
  | noRoom _ => exact ⟨Bool.and_false _, Bool.and_false _, rfl⟩
  | noStack _ => exact ⟨rfl, rfl, rfl⟩
  | noBody _ => exact ⟨rfl, rfl, rfl⟩
  | stayed _ => exact ⟨rfl, rfl, rfl⟩
  | polled => exact ⟨rfl, rfl, rfl⟩
  | settled => exact ⟨rfl, rfl, rfl⟩

theorem Fetches.uneventful {caller h : Handle} {target : Block β}
    (hfetch : Fetches caller h target request) (code : Int32) :
    Uneventful request (.ok (.code code)) := by
  cases hfetch <;> exact ⟨rfl, rfl, rfl⟩

theorem uneventful_of_lines? {lines : List Line} (hlines : request.lines? = some lines)
    (count : Nat) : Uneventful request (.ok (.woken count)) := by
  rcases Request.eq_of_lines? hlines with ⟨line, rfl, -⟩ | ⟨mask, rfl, -⟩ <;> exact ⟨rfl, rfl, rfl⟩

theorem Step.countsUp (hstep : o.Step supply request result o') : o.CountsUp o' request result := by
  cases hstep with
  | idle hidle =>
      rcases hidle.alike with ⟨_, _, _, _, rfl⟩
      exact hidle.uneventful.countsUp rfl rfl rfl
  | bootstrapped _ _ => exact ⟨rfl, rfl, rfl⟩
  | spawned _ _ _ => exact ⟨rfl, rfl, rfl⟩
  | took _ _ => exact ⟨rfl, rfl, rfl⟩
  | switched _ _ hleaves _ _ =>
      rcases hleaves.countsUp with ⟨hspawned, hexited, hswitches⟩
      refine ⟨?_, ?_, ?_⟩
      · rw [show Except.isOk _ = true from rfl, Bool.and_true]
        exact hspawned
      · rw [show Except.isOk _ = true from rfl, Bool.and_true]
        exact hexited
      · exact congrArg (· + 1) hswitches
  | delivered _ _ _ hfetch _ _ =>
      refine (hfetch.uneventful _).countsUp ?_ ?_ ?_ <;> rw [counters_reclaim]
  | detached _ _ _ _ => exact ⟨rfl, rfl, rfl⟩
  | dropped _ _ _ _ =>
      refine Uneventful.countsUp ⟨rfl, rfl, rfl⟩ ?_ ?_ ?_ <;> rw [counters_reclaim]
  | woken hlines =>
      have hcounters := o.wakeAll_counters (Scheduler.nodup_of_lines? hlines)
      refine (uneventful_of_lines? hlines _).countsUp ?_ ?_ ?_ <;> rw [hcounters]

end Outline

/-!
# Every reachable scheduler
-/

namespace Thread.Table

variable {β : Type} {t : Table β}

theorem length_eq_populations (t : Table β) :
    t.toList.length = t.population .running + t.population .ready +
      t.population .blockedOnInterrupt + t.population .blockedOnJoin + t.population .exited := by
  unfold population count
  induction t.toList with
  | nil => rfl
  | cons entry rest ih =>
      simp only [List.length_cons, List.countP_cons, ih]
      cases entry.2.state <;> simp <;> omega

end Thread.Table

namespace Scheduler

variable {β : Type} {s : Scheduler β} {o : Outline β}

namespace Entry

def creates (e : Entry β) : Bool :=
  e.request.creates && e.outcome.result.isOk

def ends (e : Entry β) : Bool :=
  e.request.ends && e.outcome.result.isOk

def switches (e : Entry β) : Bool :=
  Outline.switched e.outcome.result

end Entry

/-- The statistics agree with each other, and with the threads that there are. -/
structure Balanced (s : Scheduler β) : Prop where
  live : s.stats.liveThreads + s.stats.reclaimed = s.stats.spawned + 1
  occupied : s.stats.liveThreads = s.table.slots.countP Option.isSome
  ended : s.stats.exited = s.stats.reclaimed + s.table.population .exited
  ready : s.stats.readyThreads = s.table.population .ready
  waiting : s.stats.waitingThreads = s.table.population .blockedOnInterrupt
  /-- The others are the running thread, those that wait for a thread, and those that exited. -/
  parted : 1 + s.stats.readyThreads + s.stats.waitingThreads + s.table.population .blockedOnJoin +
    s.table.population .exited = s.stats.liveThreads

structure AddsUp (s : Scheduler β) (history : List (Entry β)) : Prop extends s.Balanced where
  limited : s.stats.liveThreads ≤ s.config.maxThreads
  spawned : s.stats.spawned = history.countP Entry.creates
  exited : s.stats.exited = history.countP Entry.ends
  contextSwitches : s.stats.contextSwitches = history.countP Entry.switches
  interruptWakeups : s.stats.interruptWakeups = (history.map Entry.woken).sum

theorem events_create (config : Config) (requests : List (Request β × Supply)) :
    ((create config).after requests).counters.spawned =
        ((create config).run requests).countP Entry.creates ∧
      ((create config).after requests).counters.exited =
          ((create config).run requests).countP Entry.ends ∧
        ((create config).after requests).counters.contextSwitches =
          ((create config).run requests).countP Entry.switches := by
  induction requests using List.reverseRecOn with
  | nil => exact ⟨rfl, rfl, rfl⟩
  | append_singleton requests entry ih =>
      rcases entry with ⟨request, supply⟩
      rcases (shaped_create config).after requests with ⟨o, hs⟩
      rcases hs.perform supply request with ⟨o', hstep, hs'⟩
      have hcounts := hstep.countsUp
      have hspawned := hcounts.spawned
      have hexited := hcounts.exited
      have hswitches := hcounts.contextSwitches
      rw [hs'.1.counters, hs.1.counters] at hspawned hexited hswitches
      rw [ih.1] at hspawned
      rw [ih.2.1] at hexited
      rw [ih.2.2] at hswitches
      rw [run_concat, after_append]
      simp only [List.countP_append, List.countP_singleton]
      exact ⟨hspawned, hexited, hswitches⟩

theorem Reachable.tallied (h : s.Reachable) : ∃ o, s.Shaped o ∧ o.Tallied :=
  h.exists_outline Outline.Tallied.create fun ho hstep htallied => hstep.tallied ho htallied

theorem Shaped.census_eq (hs : s.Shaped o) (q : Option Int32 → Bool) :
    o.census q = s.table.count fun b => q b.exitCode := by
  refine Table.count_same ?_ q
  intro slot
  rw [hs.1.get?_eq, Option.map_map]
  rfl

theorem Shaped.population_exited (hs : s.Shaped o) :
    s.table.population .exited = o.census Option.isSome := by
  rw [hs.census_eq, Table.population, Table.count, Table.count]
  refine List.countP_congr ?_
  intro entry hentry
  have hget : s.table.get? entry.1 = some entry.2 := Table.mem_toList.mp hentry
  rw [decide_eq_true_iff]
  exact (hs.coherent hget).exitCode.symm

theorem Shaped.population_running (hs : s.Shaped o) {cur : Nat} (hcurrent : s.current = some cur) :
    s.table.population .running = 1 := by
  have hmem : ∀ slot, slot ∈ [cur] ↔
      ∃ b, s.table.get? slot = some b ∧ decide (b.state = .running) = true := by
    intro slot
    simp only [List.mem_singleton, decide_eq_true_iff]
    rw [hs.running_iff, hcurrent, Option.some_inj, eq_comm]
  exact (Table.length_eq_countP (List.nodup_singleton cur) hmem).symm

theorem Shaped.length_eq (hs : s.Shaped o) : s.table.toList.length = o.census fun _ => true := by
  rw [hs.census_eq, Table.count, List.countP_true]

theorem Shaped.balanced (hs : s.Shaped o) (htallied : o.Tallied) {cur : Nat}
    (hcurrent : s.current = some cur) : s.Balanced := by
  have hpacked := hs.1.packed hs.2
  have hwell := hs.wellFormed hcurrent
  have hlive : s.stats.liveThreads = s.table.toList.length := hpacked.live_eq_length
  have hready : s.stats.readyThreads = s.table.population .ready :=
    congrArg Int.toNat hwell.readyCount
  have hwaiting : s.stats.waitingThreads = s.table.population .blockedOnInterrupt :=
    congrArg Int.toNat hwell.waitingCount
  have hadopted : o.adopted = 1 := by
    rw [Outline.adopted, hs.1.current, hcurrent]
    rfl
  refine ⟨?_, hpacked.live_eq, ?_, hready, hwaiting, ?_⟩
  · have hbooks := htallied.live
    rw [hadopted, hs.1.counters, ← hs.length_eq, ← hlive] at hbooks
    exact hbooks
  · have hbooks := htallied.ended
    rw [hs.1.counters, ← hs.population_exited] at hbooks
    exact hbooks
  · rw [hready, hwaiting, hlive, Table.length_eq_populations, hs.population_running hcurrent]

/--
Before the first successful bootstrap there is nothing to count, and ever after
the statistics add up.
-/
theorem statistics_create (config : Config) (requests : List (Request β × Supply)) :
    ((∀ e ∈ (create config).run requests, ¬ e.Adopts) ∧
        ((create config).after requests).Deserted) ∨
      ((∃ e ∈ (create config).run requests, e.Adopts) ∧
        ((create config).after requests).AddsUp ((create config).run requests)) := by
  rcases deserted_or_wellFormed config requests with hdeserted | ⟨hadopted, cur, hwell⟩
  · exact Or.inl hdeserted
  have hreachable : ((create config).after requests).Reachable := ⟨config, requests, rfl⟩
  rcases hreachable.tallied with ⟨o, hs, htallied⟩
  rcases events_create config requests with ⟨hspawned, hexited, hswitches⟩
  have hlimited := (hs.1.packed hs.2).live_le
  rw [hreachable.limits.1] at hlimited
  exact Or.inr ⟨hadopted, hs.balanced htallied hwell.current, hlimited, hspawned, hexited,
    hswitches, wakeups_create config requests⟩

end Scheduler

end Coop
