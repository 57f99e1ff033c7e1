import Coop.Proofs.Roster.Refusals

/-!
# Schedulers and rosters answer alike

A scheduler keeps its threads in slots that are used again, and its queues as links
between them.  A roster has identifiers and lists, and nothing else.  Whatever is
asked of a scheduler, a roster that is asked the same answers the same, as long as
each thread that is asked about was named by an earlier answer.
-/

namespace Coop

open Thread (Block Handle Spec Table)

namespace Scheduler

variable {β : Type}

/-!
# Runs of both
-/

namespace Entry

def handles (e : Entry β) : List Handle :=
  match e.outcome.result with
  | .ok answer => answer.handles
  | .error _ => []

def reply (e : Entry β) : Except Error (Roster.Reply β) :=
  e.outcome.result.map Answer.reply

end Entry

/-- Every thread that is asked about is a known one, or was named by an answer before. -/
def Named (known : List Handle) : List (Entry β) → Prop
  | [] => True
  | e :: rest => (∀ h ∈ e.request.target?, h ∈ known) ∧ Named (known ++ e.handles) rest

instance Named.decidable (known : List Handle) (history : List (Entry β)) :
    Decidable (Named known history) :=
  match history with
  | [] => .isTrue trivial
  | e :: rest =>
      let _ := Named.decidable (known ++ e.handles) rest
      inferInstanceAs (Decidable ((∀ h ∈ e.request.target?, h ∈ known) ∧
        Named (known ++ e.handles) rest))

/-- The requests of a run, with what the allocator has room for at each of them. -/
def script (s : Scheduler β) :
    List (Request β × Supply) → List (Request β × Supply × Bool)
  | [] => []
  | (request, supply) :: rest =>
      (request, supply, s.table.grants supply) ::
        (s.perform supply request).scheduler.script rest

structure Agrees (s : Scheduler β) (r : Roster β) (known : List Handle) : Prop where
  config : r.config = s.config
  pool : r.pool = s.pool
  stats : r.stats = s.stats
  isInitialized : r.isInitialized = s.isInitialized
  running : r.running = s.running.map Handle.id
  waitingOn : ∀ line, r.waitingOn line = s.waitingOn line
  state : ∀ h ∈ known, r.state h.id = s.state h
  isDetached : ∀ h ∈ known, r.isDetached h.id = s.isDetached h
  name : ∀ h ∈ known, r.name h.id = s.name h
  exitCode : ∀ h ∈ known, r.exitCode h.id = s.exitCode h
  stack? : ∀ h ∈ known, r.stack? h.id = s.stack? h

/-!
# Operations
-/

section Operations

variable {s : Scheduler β} {o : Outline β} {r : Roster β} {supply : Supply} {request : Request β}

theorem polled_of_done {h : Handle} (hdone : (s.perform supply (.tryJoin h)).result = .ok .done) :
    ∃ cur target, s.current = some cur ∧ s.joinable cur h = .ok target ∧
      finished? target = none := by
  cases hcurrent : s.current with
  | none =>
      simp only [Scheduler.perform, tryJoin, hcurrent] at hdone
      cases hdone
  | some cur =>
      cases hjoinable : s.joinable cur h with
      | error e =>
          simp only [Scheduler.perform, tryJoin, hcurrent, hjoinable] at hdone
          cases hdone
      | ok target =>
          cases hfinished : finished? target with
          | some code =>
              simp only [Scheduler.perform, tryJoin, hcurrent, hjoinable, hfinished] at hdone
              cases hdone
          | none => exact ⟨cur, target, rfl, hjoinable, hfinished⟩

theorem Shaped.echoes_of_idle (hs : s.Shaped o) (hm : o.Mirrors r)
    (hgenuine : ∀ h, request.target? = some h → o.Genuine h) {answer : Answer β} {o' : Outline β}
    (hok : (s.perform supply request).result = .ok answer)
    (hidle : o.Idle supply request (.ok answer) o') (room : Bool) :
    o'.Echoes (.ok answer) (r.perform room supply request) := by
  cases hidle with
  | noBody hcurrent =>
      have hcur := hs.current_eq_none hm (hs.1.current.symm.trans hcurrent)
      simp only [Roster.perform, Roster.takeBody, hcur]
      exact ⟨rfl, hm⟩
  | stayed hready =>
      have hempty : r.ready.isEmpty = true := by
        rw [hm.isEmpty_eq, hready]
        rfl
      cases hcurrent : s.current with
      | none =>
          simp only [Scheduler.perform, yield, hcurrent] at hok
          cases hok
      | some cur =>
          rcases hs.exists_current hm hcurrent with ⟨b, -, -, hcur, -⟩
          simp only [Roster.perform, Roster.yield, hcur, hempty, if_true]
          exact ⟨rfl, hm⟩
  | @polled h =>
      rcases polled_of_done hok with ⟨cur, target, hcurrent, hjoinable, hfinished⟩
      rcases hs.exists_current hm hcurrent with ⟨b, hget, -, hcur, -⟩
      have hjoinable' := hs.joinable_eq hm hget (hgenuine h rfl)
      rw [hjoinable] at hjoinable'
      have hfinished' : Roster.finished? target.record = none := hfinished
      have hsame : r.perform room supply (.tryJoin h) = (.ok .done, r) := by
        simp [Roster.perform, Roster.tryJoin, hcur, hjoinable', Except.map, hfinished']
      rw [hsame]
      exact ⟨rfl, hm⟩
  | settled => exact hm.settled supply

theorem Shaped.echoes (hs : s.Shaped o) (hm : o.Mirrors r) (hjoiners : o.JoinersGenuine)
    (hgenuine : ∀ h, request.target? = some h → o.Genuine h) :
    ∃ o', o.Step supply request (s.perform supply request).result o' ∧
      (s.perform supply request).scheduler.Shaped o' ∧
        o'.Echoes (s.perform supply request).result
          (r.perform (s.table.grants supply) supply request) := by
  rcases hs.perform supply request with ⟨o', hstep, hs'⟩
  refine ⟨o', hstep, hs', ?_⟩
  cases hresult : (s.perform supply request).result with
  | error e =>
      rw [hresult] at hstep
      exact hs.echoes_of_error hm hjoiners hgenuine hresult hstep hs'
  | ok answer =>
      rw [hresult] at hstep
      rw [← hs.grants_eq]
      cases hstep with
      | idle hidle => exact hs.echoes_of_idle hm hgenuine hresult hidle _
      | bootstrapped hcurrent hroom => exact hm.bootstrapped hs.2 hcurrent hroom
      | spawned hcurrent hroom hstack => exact hm.spawned hs.2 hcurrent hroom hstack
      | took hcurrent hget => exact hm.took hs.2 hcurrent hget
      | switched hcurrent hget hleaves hready htarget =>
          exact hm.switched hs.2 hcurrent hget hleaves hready htarget _
      | delivered hcurrent hget hlookup hfetch hexited hcode =>
          exact hm.delivered hs.2 hcurrent hget hlookup hfetch hexited hcode _ supply
      | detached hcurrent hlookup hjoiner hlive =>
          exact hm.detached hs.2 hcurrent hlookup hjoiner hlive supply
      | dropped hcurrent hlookup hjoiner hexited =>
          exact hm.dropped hs.2 hcurrent hlookup hjoiner hexited supply
      | woken hlines => exact hm.woken hs.2 hlines _ supply

end Operations

/-!
# Questions
-/

section Questions

variable {s : Scheduler β} {o : Outline β} {r : Roster β} {h : Handle}

theorem Shaped.running_eq (hs : s.Shaped o) (hm : o.Mirrors r) :
    r.running = s.running.map Handle.id := by
  cases hcurrent : s.current with
  | none =>
      have hcur := hs.current_eq_none hm hcurrent
      simp only [Roster.running, running, hcur, hcurrent]
      rfl
  | some cur =>
      rcases hs.exists_current hm hcurrent with ⟨b, -, hrunning, hcur, -⟩
      simp only [Roster.running, hcur, hrunning]
      rfl

theorem Shaped.waitingOn_eq (hs : s.Shaped o) (hm : o.Mirrors r) (line : Line) :
    r.waitingOn line = s.waitingOn line := by
  have hlen : s.waits.waiting line = (o.waiting line).length := (hs.1.waiting.holds line).len
  rw [Roster.waitingOn, hm.length_waiting, waitingOn, hlen, Int.toNat_natCast]

theorem Shaped.stats_eq (hs : s.Shaped o) (hm : o.Mirrors r) : r.stats = s.stats := by
  have hcounters : r.counters = s.counters := hm.counters.trans hs.1.counters
  have hlive : r.live = s.table.live := by
    rw [hm.live, hs.1.table]
    rfl
  have hready : r.ready.length = s.ready.len.toNat := by
    have hlength := congrArg List.length hm.ready
    rw [List.length_map, List.length_map] at hlength
    rw [hlength, (hs.1.ready.holds ()).len, Int.toNat_natCast]
  have hwaiting : (Line.all.map r.waitingOn).sum = s.waits.total.toNat := by
    have hlen : ∀ line, (s.waits.bucket line).len = (r.waitingOn line : Int) := by
      intro line
      rw [Roster.waitingOn, hm.length_waiting]
      exact (hs.1.waiting.holds line).len
    have htotal : s.waits.total = ((Line.all.map r.waitingOn).sum : Nat) := by
      rw [total_eq]
      simp only [hlen]
      induction Line.all with
      | nil => rfl
      | cons line lines ih => simp [ih]
    rw [htotal, Int.toNat_natCast]
  simp only [Roster.stats, stats, hcounters, hlive, hready, hwaiting]

theorem Shaped.resolve_eq (hs : s.Shaped o) (hm : o.Mirrors r) (hgenuine : o.Genuine h) :
    r.resolve h.id = (s.resolve h).map Block.record := by
  rw [Roster.resolve, resolve, hs.find?_eq hm hgenuine]
  cases s.table.lookup h <;> rfl

theorem Shaped.asked_eq {α : Type} (hs : s.Shaped o) (hm : o.Mirrors r) (hgenuine : o.Genuine h)
    (f : Roster.Record β → α) :
    (r.resolve h.id).map f = (s.resolve h).map fun b => f b.record := by
  rw [hs.resolve_eq hm hgenuine]
  cases s.resolve h <;> rfl

theorem Shaped.exitCode_eq (hs : s.Shaped o) (hm : o.Mirrors r) (hgenuine : o.Genuine h) :
    r.exitCode h.id = s.exitCode h := by
  rw [Roster.exitCode, exitCode, hs.resolve_eq hm hgenuine]
  cases s.resolve h <;> rfl

theorem Shaped.agrees (hs : s.Shaped o) (hm : o.Mirrors r) {known : List Handle}
    (hknown : ∀ h ∈ known, o.Genuine h) : s.Agrees r known where
  config := hm.config.trans hs.1.config
  pool := hm.pool.trans hs.1.pool
  stats := hs.stats_eq hm
  isInitialized := by
    rw [Roster.isInitialized, isInitialized, Bool.eq_iff_iff, Option.isSome_iff_ne_none,
      Option.isSome_iff_ne_none, ne_eq, ne_eq, hm.current_eq_none_iff hs.2, hs.1.current]
  running := hs.running_eq hm
  waitingOn := hs.waitingOn_eq hm
  state := fun h hh => hs.asked_eq hm (hknown h hh) Roster.Record.state
  isDetached := fun h hh => hs.asked_eq hm (hknown h hh) Roster.Record.detached
  name := fun h hh => hs.asked_eq hm (hknown h hh) Roster.Record.name
  exitCode := fun h hh => hs.exitCode_eq hm (hknown h hh)
  stack? := fun h hh => hs.asked_eq hm (hknown h hh) Roster.Record.stack

end Questions

/-!
# Whole runs
-/

section Runs

variable {s : Scheduler β} {o : Outline β} {r : Roster β} {known : List Handle}

/-- Where a run of both has come to, with the threads that were named so far. -/
structure Tracks (s : Scheduler β) (o : Outline β) (r : Roster β) (known : List Handle) :
    Prop where
  shaped : s.Shaped o
  mirrors : o.Mirrors r
  joiners : o.JoinersGenuine
  genuine : ∀ h ∈ known, o.Genuine h

theorem tracks_create (config : Config) :
    ∃ o, (create config : Scheduler β).Tracks o (Roster.create config) [] := by
  have hempty : ∀ slot, (Outline.create config : Outline β).table.get? slot = none :=
    Table.get?_empty config.maxThreads
  refine ⟨_, shaped_create config, ?_, ?_, by simp⟩
  · refine ⟨⟨rfl, rfl, rfl, ?_, ?_, rfl, fun _ => rfl, rfl, rfl, rfl, rfl⟩, rfl⟩
    · intro slot b hget
      rw [hempty] at hget
      cases hget
    · intro id hid
      cases hid
  · intro h l j hlife
    unfold Outline.life? Table.life? at hlife
    rw [Table.lookup_eq_none_of_get? (hempty h.slot)] at hlife
    cases hlife

theorem Tracks.perform (ht : s.Tracks o r known) (supply : Supply) {request : Request β}
    (hnamed : ∀ h ∈ request.target?, h ∈ known) :
    ∃ o', (r.perform (s.table.grants supply) supply request).1 =
        (s.perform supply request).result.map Answer.reply ∧
      (s.perform supply request).scheduler.Tracks o'
        (r.perform (s.table.grants supply) supply request).2
        (known ++ Entry.handles ⟨s, request, supply, s.perform supply request⟩) := by
  have hgenuine : ∀ h, request.target? = some h → o.Genuine h :=
    fun h hh => ht.genuine h (hnamed h hh)
  rcases ht.shaped.echoes ht.mirrors ht.joiners hgenuine with ⟨o', hstep, hs', hreply, hm'⟩
  refine ⟨o', hreply, hs', hm', hstep.joinersGenuine ht.shaped.2 ht.joiners, ?_⟩
  intro h hh
  rcases List.mem_append.mp hh with hold | hnew
  · exact hstep.genuine ht.shaped.2 (ht.genuine h hold)
  · unfold Entry.handles at hnew
    cases hresult : (s.perform supply request).result with
    | error e =>
        simp only [hresult] at hnew
        cases hnew
    | ok answer =>
        simp only [hresult] at hnew
        rw [hresult] at hstep
        exact hstep.genuine_of_mem_handles ht.shaped.2 hnew

theorem Tracks.run (ht : s.Tracks o r known) {requests : List (Request β × Supply)}
    (hnamed : Named known (s.run requests)) :
    (s.run requests).map Entry.reply = r.run (s.script requests) ∧
      ∃ o', (s.after requests).Tracks o' (r.after (s.script requests))
        (known ++ (s.run requests).flatMap Entry.handles) := by
  induction requests generalizing s o r known with
  | nil =>
      refine ⟨rfl, o, ?_⟩
      rw [show (s.run []).flatMap Entry.handles = [] from rfl, List.append_nil]
      exact ht
  | cons entry rest ih =>
      rcases entry with ⟨request, supply⟩
      rcases ht.perform supply hnamed.1 with ⟨o', hreply, ht'⟩
      rcases ih ht' hnamed.2 with ⟨hreplies, o'', ht''⟩
      constructor
      · exact List.cons_eq_cons.mpr ⟨hreply.symm, hreplies⟩
      · refine ⟨o'', ?_⟩
        rw [List.append_assoc] at ht''
        exact ht''

theorem Named.of_append {history later : List (Entry β)} (hnamed : Named known (history ++ later)) :
    Named known history := by
  induction history generalizing known with
  | nil => trivial
  | cons e history ih => exact ⟨hnamed.1, ih hnamed.2⟩

theorem room_of_mem_script {requests : List (Request β × Supply)}
    {entry : Request β × Supply × Bool}
    (hentry : entry ∈ s.script requests) (hslots : entry.2.1.slots ≠ .refused)
    (hvacant : entry.2.1.vacant ≠ .refused) : entry.2.2 = true := by
  induction requests generalizing s with
  | nil => cases hentry
  | cons first rest ih =>
      rcases List.mem_cons.mp hentry with rfl | hrest
      · exact s.table.grants_of_granted hslots hvacant
      · exact ih hrest

end Runs

/-- In a run, the scheduler answers as a roster does that was asked the same. -/
structure FollowsRoster (config : Config) (requests : List (Request β × Supply)) : Prop where
  replies : ((create config).run requests).map Entry.reply =
    (Roster.create config).run ((create config).script requests)
  questions : ∀ earlier, earlier <+: requests →
    ((create config).after earlier).Agrees
      ((Roster.create config).after ((create config).script earlier))
      (((create config).run earlier).flatMap Entry.handles)
  /-- An allocator that refuses nothing has room whenever it is asked. -/
  room : ∀ entry ∈ (create config : Scheduler β).script requests,
    entry.2.1.slots ≠ .refused → entry.2.1.vacant ≠ .refused → entry.2.2 = true

/--
Whatever is asked of a scheduler, of threads that it named before, it answers as a
roster does.
-/
theorem followsRoster_create (config : Config) (requests : List (Request β × Supply))
    (hnamed : Named [] ((create config).run requests)) : FollowsRoster config requests := by
  rcases tracks_create (β := β) config with ⟨o, ht⟩
  constructor
  · exact (ht.run hnamed).1
  · intro earlier hearlier
    rcases hearlier with ⟨later, rfl⟩
    rw [run_append] at hnamed
    rcases (ht.run hnamed.of_append).2 with ⟨o', ht'⟩
    exact ht'.shaped.agrees ht'.mirrors ht'.genuine
  · intro entry hentry
    exact room_of_mem_script hentry

/-- Thread 2 is joined and collected, and asked for again when thread 3 has its slot. -/
def takesSlotAgain : List (Request Unit × Supply) :=
  [(.bootstrap, .ample), (.spawn {} (), .ample), (.join ⟨1, 2⟩, .ample), (.exit 7, .ample),
    (.collect ⟨1, 2⟩, .ample), (.spawn { detached := true } (), .ample),
    (.tryJoin ⟨1, 2⟩, .ample), (.wait 5, .ample), (.interrupt 5, .ample), (.exit 0, .ample)]

theorem followsRoster_takesSlotAgain :
    Named [] ((create {}).run takesSlotAgain) ∧ FollowsRoster {} takesSlotAgain ∧
      ((create {}).run takesSlotAgain).map Entry.reply =
        [.ok (.thread 1), .ok (.thread 2), .ok (.transfer 1 2), .ok (.transfer 2 1), .ok (.code 7),
          .ok (.thread 3), .error (.misuse .invalidHandle), .ok (.transfer 1 3), .ok (.woken 1),
          .ok (.transfer 3 1)] := by
  have hnamed : Named [] ((create {}).run takesSlotAgain) := by decide
  exact ⟨hnamed, followsRoster_create {} takesSlotAgain hnamed, rfl⟩

end Scheduler

end Coop
