import Coop.Proofs.Scheduler.Simulation

/-!
# The structure of reachable schedulers

A scheduler is deserted until a bootstrap succeeds.  From then on it is well formed:
one thread runs, each queue holds exactly the threads that belong there, linked
in a way that following the links meets each of them once, and the fields of each
block agree with each other and with the rest of the table.
-/

namespace Coop

open Thread (Block Family Handle Id Lane Queue Spec State Table)

/-!
# What well formed means
-/

namespace Thread.Queue

variable {β : Type} {lane : Lane}

/--
Following the links from the head of a queue meets these slots, each once, and
then ends, at the tail; the queue knows how many they are.
-/
structure Visits (q : Queue lane) (t : Table β) (slots : List Nat) : Prop where
  take : ∀ count, q.take t count = slots.take count
  nodup : slots.Nodup
  head : q.head = slots.head?
  tail : q.tail = slots.getLast?
  len : q.len = slots.length

/-- A queue visits exactly the slots of the live blocks of a kind. -/
def Lists (q : Queue lane) (t : Table β) (p : Block β → Prop) : Prop :=
  ∃ slots, q.Visits t slots ∧ ∀ slot, slot ∈ slots ↔ ∃ b, t.get? slot = some b ∧ p b

theorem Holds.visits {q : Queue lane} {t : Table β} {slots : List Nat} (h : q.Holds t slots) :
    q.Visits t slots :=
  ⟨h.take_eq, h.nodup, h.head, h.tail, h.len⟩

theorem Visits.unique {q : Queue lane} {t : Table β} {slots slots' : List Nat}
    (h : q.Visits t slots) (h' : q.Visits t slots') : slots' = slots := by
  have hlen : slots'.length = slots.length := Int.ofNat_inj.mp (h'.len.symm.trans h.len)
  calc
    slots' = slots'.take slots.length := by rw [← hlen, List.take_length]
    _ = q.take t slots.length := (h'.take slots.length).symm
    _ = slots.take slots.length := h.take slots.length
    _ = slots := List.take_length

end Thread.Queue

/-- A live block agrees with itself, with its links, and with its joiner. -/
structure Thread.Block.Settled {β : Type} (b : Block β) (t : Table β) : Prop
    extends b.Coherent where
  readyLinked : b.readyLink.linked = true ↔ b.state = .ready
  waitLinked : b.waitLink.linked = true ↔ b.state = .blockedOnInterrupt
  joined : ∀ j, b.joiner = some j → b.state ≠ .exited →
    ∃ c, t.lookup j = some c ∧ c.state = .blockedOnJoin

namespace Scheduler

variable {β : Type}

structure Deserted (s : Scheduler β) : Prop where
  current : s.current = none
  vacant : ∀ slot, s.table.get? slot = none
  live : s.table.live = 0
  ready : s.ready = {}
  waiting : ∀ line, s.waits.bucket line = {}

structure WellFormed (s : Scheduler β) (cur : Nat) : Prop where
  current : s.current = some cur
  running : ∀ slot, (∃ b, s.table.get? slot = some b ∧ b.state = .running) ↔ slot = cur
  ready : s.ready.Lists s.table fun b => b.state = .ready
  waiting : ∀ line,
    (s.waits.bucket line).Lists s.table fun b =>
      b.state = .blockedOnInterrupt ∧ b.line = some line
  settled : ∀ slot b, s.table.get? slot = some b → b.Settled s.table
  readyCount : s.ready.len = s.table.toList.countP fun entry => entry.2.state = .ready
  waitingCount : s.waits.total =
    s.table.toList.countP fun entry => entry.2.state = .blockedOnInterrupt

end Scheduler

/-!
# From outlines to well-formed schedulers
-/

namespace Scheduler.Shaped

variable {β : Type} {s : Scheduler β} {o : Outline β} {slot : Nat} {b : Block β}

theorem placed (h : s.Shaped o) : o.Placed s.current := by
  rw [← h.1.current]
  exact h.2.placed

theorem get?_bare (h : s.Shaped o) (hget : s.table.get? slot = some b) :
    o.table.get? slot = some b.bare := by
  rw [h.1.get?_eq, hget]
  rfl

theorem coherent (h : s.Shaped o) (hget : s.table.get? slot = some b) : b.Coherent := by
  rcases h.placed.coherent (h.get?_bare hget) with ⟨waiting, line, exitCode, attached, unjoined⟩
  exact ⟨waiting, line, exitCode, attached, unjoined⟩

theorem mem_ready_iff (h : s.Shaped o) (slot : Nat) :
    slot ∈ o.ready ↔ ∃ b, s.table.get? slot = some b ∧ b.state = .ready := by
  constructor
  · intro hmem
    rcases h.placed.get?_of_mem_ready hmem with ⟨b, hb, hstate⟩
    rw [h.1.get?_eq] at hb
    rcases Option.map_eq_some_iff.mp hb with ⟨c, hc, rfl⟩
    exact ⟨c, hc, hstate⟩
  · intro hready
    rcases hready with ⟨b, hb, hstate⟩
    exact (h.placed.mem_ready_iff (h.get?_bare hb)).mpr hstate

theorem mem_waiting_iff (h : s.Shaped o) (line : Line) (slot : Nat) :
    slot ∈ o.waiting line ↔
      ∃ b, s.table.get? slot = some b ∧ b.state = .blockedOnInterrupt ∧ b.line = some line := by
  constructor
  · intro hmem
    rcases h.placed.get?_of_mem_waiting hmem with ⟨b, hb, hstate, hline⟩
    rw [h.1.get?_eq] at hb
    rcases Option.map_eq_some_iff.mp hb with ⟨c, hc, rfl⟩
    exact ⟨c, hc, hstate, hline⟩
  · intro hwaiting
    rcases hwaiting with ⟨b, hb, -, hline⟩
    exact (h.placed.mem_waiting_iff (h.get?_bare hb) line).mpr hline

theorem running_iff (h : s.Shaped o) (slot : Nat) :
    (∃ b, s.table.get? slot = some b ∧ b.state = .running) ↔ s.current = some slot := by
  constructor
  · intro hrunning
    rcases hrunning with ⟨b, hb, hstate⟩
    exact (h.placed.running_iff (h.get?_bare hb)).mpr hstate
  · intro hcurrent
    rcases h.1.get?_current h.2 hcurrent with ⟨b, hb, -, hstate⟩
    exact ⟨b, hb, hstate⟩

theorem blocked_of_joiner (h : s.Shaped o) (hget : s.table.get? slot = some b) {j : Handle}
    (hjoiner : b.joiner = some j) (hlive : b.state ≠ .exited) :
    ∃ c, s.table.lookup j = some c ∧ c.state = .blockedOnJoin := by
  have hawaits : o.table.Awaits j slot := ⟨b.bare, h.get?_bare hget, hlive, hjoiner⟩
  rcases h.2.joins.blocked hawaits with ⟨c, hc, hstate⟩
  rw [h.1.lookup_eq] at hc
  rcases Option.map_eq_some_iff.mp hc with ⟨c', hc', rfl⟩
  exact ⟨c', hc', hstate⟩

theorem settled (h : s.Shaped o) (hget : s.table.get? slot = some b) : b.Settled s.table where
  toCoherent := h.coherent hget
  readyLinked := by
    have hlinked := h.1.ready.linked_iff slot
    rw [Table.link_eq_of_get? hget] at hlinked
    refine hlinked.trans ((exists_const Unit).trans ?_)
    have hmem := h.placed.mem_ready_iff (h.get?_bare hget)
    exact hmem
  waitLinked := by
    have hlinked := h.1.waiting.linked_iff slot
    rw [Table.link_eq_of_get? hget] at hlinked
    refine hlinked.trans ?_
    rw [← (h.coherent hget).line, Option.isSome_iff_exists]
    exact exists_congr fun line => h.placed.mem_waiting_iff (h.get?_bare hget) line
  joined := fun j hjoiner hlive => h.blocked_of_joiner hget hjoiner hlive

/-!
# Counting the waiters of all lines
-/

theorem total_eq (w : Waits) :
    w.total = Line.all.foldr (fun line count => (w.bucket line).len + count) 0 := by
  have hbuckets : w.buckets.toList = Line.all.map w.bucket := by
    apply List.ext_getElem
    · simp [Line.all]
    · intro i h1 h2
      simp [Line.all, Waits.bucket]
  rw [Waits.total, hbuckets, List.foldr_map]

theorem waitingCount (h : s.Shaped o) :
    s.waits.total = s.table.toList.countP fun entry => entry.2.state = .blockedOnInterrupt := by
  -- the waiters of all lines in one list, which no thread is in twice
  have hnodup : (Line.all.flatMap o.waiting).Nodup := by
    refine List.nodup_flatMap.mpr ⟨fun line _ => h.placed.waiting_nodup line, ?_⟩
    refine (List.nodup_finRange 32).imp ?_
    intro line line' hne slot hslot hslot'
    exact hne (h.1.waiting.disjoint hslot hslot')
  have hmem : ∀ slot, slot ∈ Line.all.flatMap o.waiting ↔
      ∃ b, s.table.get? slot = some b ∧ decide (b.state = .blockedOnInterrupt) = true := by
    intro slot
    rw [List.mem_flatMap]
    constructor
    · intro hline
      rcases hline with ⟨line, -, hslot⟩
      rcases (h.mem_waiting_iff line slot).mp hslot with ⟨b, hb, hstate, -⟩
      exact ⟨b, hb, decide_eq_true hstate⟩
    · intro hblocked
      rcases hblocked with ⟨b, hb, hstate⟩
      have hstate' := of_decide_eq_true hstate
      rcases Option.isSome_iff_exists.mp ((h.coherent hb).line.mpr hstate') with ⟨line, hline⟩
      exact ⟨line, Line.mem_all line, (h.mem_waiting_iff line slot).mpr ⟨b, hb, hstate', hline⟩⟩
  have hlen : ∀ line, (s.waits.bucket line).len = ((o.waiting line).length : Int) := by
    intro line
    exact (h.1.waiting.holds line).len
  rw [total_eq, ← Table.length_eq_countP hnodup hmem]
  simp only [hlen]
  induction Line.all with
  | nil => rfl
  | cons line lines ih => simp [ih]

theorem wellFormed (h : s.Shaped o) {cur : Nat} (hcurrent : s.current = some cur) :
    s.WellFormed cur where
  current := hcurrent
  running := by
    intro slot
    rw [h.running_iff, hcurrent, Option.some_inj, eq_comm]
  ready := ⟨o.ready, (h.1.ready.holds ()).visits, h.mem_ready_iff⟩
  waiting := fun line => ⟨o.waiting line, (h.1.waiting.holds line).visits, h.mem_waiting_iff line⟩
  settled := fun slot b hget => h.settled hget
  readyCount := by
    rw [(h.1.ready.holds ()).len]
    have hmem : ∀ slot, slot ∈ o.ready ↔
        ∃ b, s.table.get? slot = some b ∧ decide (b.state = .ready) = true := by
      simpa using h.mem_ready_iff
    rw [← Table.length_eq_countP h.placed.ready_nodup hmem]
  waitingCount := h.waitingCount

theorem deserted (h : s.Shaped o) (hcurrent : s.current = none) : s.Deserted := by
  have hnone : o.current = none := h.1.current.trans hcurrent
  have hvacant : ∀ slot, s.table.get? slot = none := by
    intro slot
    have hslot := h.2.deserted hnone slot
    rw [h.1.get?_eq] at hslot
    exact Option.map_eq_none_iff.mp hslot
  constructor
  · exact hcurrent
  · exact hvacant
  · rw [(h.1.packed h.2).live_eq]
    apply Array.countP_eq_zero.mpr
    intro entry hentry
    rcases Array.mem_iff_getElem?.mp hentry with ⟨slot, hslot⟩
    have hslot' := hvacant slot
    simp only [Table.get?, hslot, Option.join_some] at hslot'
    simp [hslot']
  · have hholds := h.1.ready.holds ()
    rw [h.2.ready_eq_nil hnone] at hholds
    exact hholds.eq_blank
  · intro line
    have hholds := h.1.waiting.holds line
    rw [h.2.waiting_eq_nil hnone] at hholds
    exact hholds.eq_blank

theorem isSome_current_of_get? (h : s.Shaped o) (hget : s.table.get? slot = some b) :
    s.current.isSome = true := by
  cases hcurrent : s.current with
  | none =>
      rw [(h.deserted hcurrent).vacant slot] at hget
      cases hget
  | some cur => rfl

end Scheduler.Shaped

/-!
# When there is a thread
-/

def Scheduler.Entry.Adopts {β : Type} (e : Entry β) : Prop :=
  e.request = .bootstrap ∧ ∃ h, e.answer? = some (.handle h)

namespace Outline

variable {β : Type} {o o' : Outline β}

theorem Step.current_isSome_iff {supply : Supply} {request : Request β}
    {result : Except Error (Answer β)} (hstep : o.Step supply request result o') :
    o'.current.isSome = true ↔
      (request = .bootstrap ∧ ∃ h, result.toOption = some (.handle h)) ∨
        o.current.isSome = true := by
  cases hstep with
  | idle hidle =>
      rw [hidle.alike.current]
      cases hidle <;> simp [Except.toOption]
  | bootstrapped hcurrent hroom => simp [adopt, Except.toOption]
  | @spawned cur spec body stack hcurrent hroom hstack =>
      have hsame : (((o.reserve supply).allocate supply (o.config.stackSize spec.stackSize)).enroll
          (.fresh o.nextId (o.prepare stack) body spec)).current = o.current := rfl
      simp [hsame, hcurrent]
  | took hcurrent hget => simp [modify, hcurrent]
  | switched hcurrent hget hleaves hready htarget => simp [dispatch, hcurrent]
  | delivered hcurrent hget hlookup hfetch hstate hcode => simp [current_reclaim, hcurrent]
  | detached hcurrent hlookup hjoiner hstate => simp [modify, hcurrent]
  | dropped hcurrent hlookup hjoiner hstate => simp [current_reclaim, hcurrent]
  | woken _ => simp [wakeAll_current, Except.toOption]

end Outline

namespace Scheduler

variable {β : Type} {s : Scheduler β} {o : Outline β}

theorem Shaped.current_isSome_iff (h : s.Shaped o) (requests : List (Request β × Supply)) :
    (s.after requests).current.isSome = true ↔
      (∃ e ∈ s.run requests, e.Adopts) ∨ s.current.isSome = true := by
  induction requests generalizing s o with
  | nil => simp [run]
  | cons entry rest ih =>
      rcases entry with ⟨request, supply⟩
      rcases h.perform supply request with ⟨o', hstep, hshaped⟩
      have hcurrent := hstep.current_isSome_iff
      rw [h.1.current, hshaped.1.current] at hcurrent
      rw [after_cons, ih hshaped, hcurrent]
      simp only [run, List.mem_cons, exists_eq_or_imp, Entry.Adopts, Entry.answer?]
      exact or_left_comm.trans or_assoc.symm

theorem Shaped.isSome_current_after (h : s.Shaped o) (hcurrent : s.current.isSome = true)
    (requests : List (Request β × Supply)) : (s.after requests).current.isSome = true :=
  (h.current_isSome_iff requests).mpr (Or.inr hcurrent)

/--
Every reachable scheduler is deserted before the first successful bootstrap, and
well formed ever after.
-/
theorem deserted_or_wellFormed (config : Config) (requests : List (Request β × Supply)) :
    ((∀ e ∈ (create config).run requests, ¬ e.Adopts) ∧
        ((create config).after requests).Deserted) ∨
      ((∃ e ∈ (create config).run requests, e.Adopts) ∧
        ∃ cur, ((create config).after requests).WellFormed cur) := by
  have hcreated : (create config : Scheduler β).Shaped _ :=
    ⟨Represents.create config, Outline.sound_create config⟩
  rcases hcreated.after requests with ⟨o, hshaped⟩
  have hadopts := hcreated.current_isSome_iff requests
  cases hcurrent : ((create config : Scheduler β).after requests).current with
  | none =>
      refine Or.inl ⟨?_, hshaped.deserted hcurrent⟩
      intro e he hadopt
      have hsome := hadopts.mpr (Or.inl ⟨e, he, hadopt⟩)
      rw [hcurrent] at hsome
      cases hsome
  | some cur =>
      refine Or.inr ⟨?_, cur, hshaped.wellFormed hcurrent⟩
      rw [hcurrent] at hadopts
      rcases hadopts.mp rfl with hadopted | hsome
      · exact hadopted
      · cases hsome

end Scheduler

end Coop
