import Coop.Proofs.Scheduler.Courses
import Coop.Proofs.Scheduler.Handles
import Coop.Proofs.Scheduler.Interrupts

/-!
# The law of a thread's life

From its creation until its block is removed, a thread keeps its identifier, its name
and its stack, and whatever else changes in its block changes for a reason that can be
read off the operation.  What was set once is never set again: a thread that is detached
stays detached, and its joiner, its exit code and the loss of its body are final.
-/

namespace Coop

open Thread (Block Handle Spec State Table)

namespace Scheduler

variable {β : Type}

namespace Entry

def Gives (e : Entry β) (h : Handle) (request : Request β) : Prop :=
  e.earlier.running = .ok h ∧ e.request = request ∧ ∃ t, e.answer? = some (.transfer t)

inductive Moves (e : Entry β) (h : Handle) : State → State → Prop where
  | stays {state : State} : Moves e h state state
  | yields : e.Gives h .yield → Moves e h .running .ready
  | waits {line : Line} : e.Gives h (.wait line) → Moves e h .running .blockedOnInterrupt
  | joins {target : Handle} : e.Gives h (.join target) → Moves e h .running .blockedOnJoin
  | exits {code : Int32} : e.Exits h code → Moves e h .running .exited
  | dispatched {t : Transfer} : e.earlier.ready.front = some h.slot →
      e.answer? = some (.transfer t) → t.target = h → Moves e h .ready .running
  | woken {line : Line} : e.earlier.WaitsOn h line → e.request.covers line = true →
      Moves e h .blockedOnInterrupt .ready
  | released {target : Handle} {code : Int32} : e.earlier.Awaits h target →
      e.Exits target code → Moves e h .blockedOnJoin .ready
  /-- So it did, and no thread was ready. -/
  | passed {target : Handle} {code : Int32} {t : Transfer} : e.earlier.Awaits h target →
      e.Exits target code → e.earlier.ready.isEmpty = true → e.answer? = some (.transfer t) →
        t.target = h → Moves e h .blockedOnJoin .running

structure Alters (e : Entry β) (h : Handle) (b b' : Block β) : Prop where
  estate : b'.estate = b.estate
  detached : b'.isDetached = b.isDetached ∨
    b.isDetached = false ∧ b'.isDetached = true ∧ e.Detaches h
  joiner : b'.joiner = b.joiner ∨
    ∃ caller, b.joiner = none ∧ b'.joiner = some caller ∧ e.Gives caller (.join h)
  exitCode : b'.exitCode = b.exitCode ∨
    ∃ code, b.exitCode = none ∧ b'.exitCode = some code ∧ e.Exits h code
  body : b'.body = b.body ∨
    b.body.isSome = true ∧ b'.body = none ∧ e.earlier.running = .ok h ∧
      (e.request = .takeBody ∨ ∃ code, e.Exits h code)
  waiting : b'.isWaiting = b.isWaiting ∧ b'.line = b.line ∨
    (∃ line, b.isWaiting = false ∧ b.line = none ∧ b'.isWaiting = true ∧ b'.line = some line ∧
      e.Gives h (.wait line)) ∨
    ∃ line, b.isWaiting = true ∧ b.line = some line ∧ b'.isWaiting = false ∧ b'.line = none ∧
      e.request.covers line = true

structure Treats (e : Entry β) (h : Handle) (b b' : Block β) : Prop extends e.Alters h b b' where
  state : e.Moves h b.state b'.state

end Entry

/-- What is final in the block of a thread stays as it was. -/
structure Lasts (b b' : Block β) : Prop where
  estate : b'.estate = b.estate
  detached : b.isDetached = true → b'.isDetached = true
  joiner : ∀ j, b.joiner = some j → b'.joiner = some j
  exitCode : ∀ code, b.exitCode = some code → b'.exitCode = some code
  body : b.body = none → b'.body = none

structure KeepsLaw (s : Scheduler β) (requests : List (Request β × Supply)) : Prop where
  begins : ∀ e ∈ s.run requests, ∀ h, e.created? = some h → ∃ b, e.later.table.lookup h = some b ∧
    b.joiner = none ∧ b.exitCode = none ∧ b.isWaiting = false ∧ b.line = none
  treats : ∀ e ∈ s.run requests, ∀ h b b', e.earlier.table.lookup h = some b →
    e.later.table.lookup h = some b' → e.Treats h b b'
  lasts : ∀ first next rest, requests = first ++ next ++ rest → ∀ h b b',
    (s.after first).table.lookup h = some b → (s.after (first ++ next)).table.lookup h = some b' →
      Lasts b b'

section Step

variable {o : Outline β} {e : Entry β} {h : Handle} {b b' b₁ : Block β} {t : Transfer}

/-!
# The causes of changes
-/

theorem Shaped.gives (hs : e.earlier.Shaped o) (hruns : o.Runs h)
    (hresult : e.outcome.result = .ok (.transfer t)) {request : Request β}
    (hrequest : e.request = request) : e.Gives h request :=
  ⟨(hs.runs_iff h).mp hruns, hrequest, t, Entry.answer?_eq_some_iff.mpr hresult⟩

theorem Shaped.state_of_runs (hs : e.earlier.Shaped o) (hruns : o.Runs h)
    (hlookup : o.table.lookup h = some b) : b.state = .running :=
  (hs.2.placed.running_iff (Table.lookup_eq_some_iff.mp hlookup).1).mp hruns.1

theorem Shaped.alters_of_leg (hs : e.earlier.Shaped o) (hlookup : o.table.lookup h = some b)
    (hresult : e.outcome.result = .ok (.transfer t)) (hleg : o.Leg h e.request b b₁) :
    e.Alters h b b₁ := by
  have hcoherent := hs.2.placed.coherent (Table.lookup_eq_some_iff.mp hlookup).1
  have hgives : ∀ {j request}, o.Runs j → e.request = request → e.Gives j request :=
    fun hruns hrequest => hs.gives hruns hresult hrequest
  have hstate : o.Runs h → b.state = .running := fun hruns => hs.state_of_runs hruns hlookup
  generalize hrequest : e.request = request at hleg
  cases hleg with
  | kept => exact ⟨rfl, .inl rfl, .inl rfl, .inl rfl, .inl rfl, .inl ⟨rfl, rfl⟩⟩
  | yields _ => exact ⟨rfl, .inl rfl, .inl rfl, .inl rfl, .inl rfl, .inl ⟨rfl, rfl⟩⟩
  | joins _ => exact ⟨rfl, .inl rfl, .inl rfl, .inl rfl, .inl rfl, .inl ⟨rfl, rfl⟩⟩
  | released _ _ => exact ⟨rfl, .inl rfl, .inl rfl, .inl rfl, .inl rfl, .inl ⟨rfl, rfl⟩⟩
  | named hruns hjoiner =>
      refine ⟨rfl, .inl rfl, .inr ⟨_, hjoiner, rfl, hgives hruns hrequest⟩, .inl rfl, .inl rfl,
        .inl ⟨rfl, rfl⟩⟩
  | @parks _ line hruns =>
      have hwaiting : b.isWaiting = false := by
        rw [← Bool.not_eq_true, hcoherent.waiting, hstate hruns]
        decide
      have hline : b.line = none := by
        rw [← Option.not_isSome_iff_eq_none, hcoherent.line, hstate hruns]
        decide
      refine ⟨rfl, .inl rfl, .inl rfl, .inl rfl, .inl rfl, .inr (.inl ?_)⟩
      exact ⟨line, hwaiting, hline, rfl, rfl, hgives hruns hrequest⟩
  | @exits _ code hruns =>
      have hcode : b.exitCode = none := by
        rw [← Option.not_isSome_iff_eq_none, hcoherent.exitCode, hstate hruns]
        decide
      have hexits : e.Exits h code := hgives hruns hrequest
      refine ⟨rfl, .inl rfl, .inl rfl, .inr ⟨code, hcode, rfl, hexits⟩, ?_, .inl ⟨rfl, rfl⟩⟩
      cases hbody : b.body with
      | none => exact .inl rfl
      | some body => exact .inr ⟨rfl, rfl, hexits.1, .inr ⟨code, hexits⟩⟩

theorem Shaped.moves_of_leg (hs : e.earlier.Shaped o) (hlookup : o.table.lookup h = some b)
    (hresult : e.outcome.result = .ok (.transfer t)) (hleg : o.Leg h e.request b b₁) :
    e.Moves h b.state b₁.state := by
  have hgives : ∀ {j request}, o.Runs j → e.request = request → e.Gives j request :=
    fun hruns hrequest => hs.gives hruns hresult hrequest
  have hstate : o.Runs h → b.state = .running := fun hruns => hs.state_of_runs hruns hlookup
  generalize hrequest : e.request = request at hleg
  cases hleg with
  | kept => exact .stays
  | named _ _ => exact .stays
  | yields hruns =>
      rw [hstate hruns]
      exact .yields (hgives hruns hrequest)
  | parks hruns =>
      rw [hstate hruns]
      exact .waits (hgives hruns hrequest)
  | exits hruns =>
      rw [hstate hruns]
      exact .exits (hgives hruns hrequest)
  | joins hruns =>
      rw [hstate hruns]
      exact .joins (hgives hruns hrequest)
  | released hruns hawaits =>
      rcases hs.2.joins.blocked hawaits.table with ⟨c, hc, hblocked⟩
      rw [hlookup] at hc
      injection hc with hb
      rw [hb, hblocked]
      exact .released ((hs.awaits_iff _ _).mp hawaits) (hgives hruns hrequest)

/-- A thread that begins to run was the first ready one, or it took over from its target. -/
theorem Shaped.moves_of_next (hs : e.earlier.Shaped o) (hlookup : o.table.lookup h = some b)
    (hresult : e.outcome.result = .ok (.transfer t)) (htarget : t.target = h)
    (hnext : o.Next h e.request) : e.Moves h b.state .running := by
  have hget := (Table.lookup_eq_some_iff.mp hlookup).1
  have hanswer := Entry.answer?_eq_some_iff.mpr hresult
  have hgives : ∀ {j request}, o.Runs j → e.request = request → e.Gives j request :=
    fun hruns hrequest => hs.gives hruns hresult hrequest
  generalize hrequest : e.request = request at hnext
  cases hnext with
  | front hfront =>
      have hstate : b.state = .ready :=
        (hs.2.placed.mem_ready_iff hget).mp (List.mem_of_mem_head? hfront)
      have hhead : e.earlier.ready.front = some h.slot :=
        ((hs.1.ready.holds ()).head).trans hfront
      rw [hstate]
      exact .dispatched hhead hanswer htarget
  | released hready hruns hawaits =>
      rcases hs.2.joins.blocked hawaits.table with ⟨c, hc, hblocked⟩
      rw [hlookup] at hc
      injection hc with hb
      rw [hb, hblocked]
      refine .passed ((hs.awaits_iff _ _).mp hawaits) (hgives hruns hrequest) ?_ hanswer htarget
      rw [hs.1.isEmpty_eq, hready]
      rfl

theorem Shaped.treats_of_course (hs : e.earlier.Shaped o) (hlookup : o.table.lookup h = some b)
    (hcourse : o.Course h e.request e.outcome.result b b') : e.Treats h b b' := by
  have hget := (Table.lookup_eq_some_iff.mp hlookup).1
  have hcoherent := hs.2.placed.coherent hget
  generalize hresult : e.outcome.result = result at hcourse
  cases hcourse with
  | kept => exact ⟨⟨rfl, .inl rfl, .inl rfl, .inl rfl, .inl rfl, .inl ⟨rfl, rfl⟩⟩, .stays⟩
  | left hleg => exact ⟨hs.alters_of_leg hlookup hresult hleg, hs.moves_of_leg hlookup hresult hleg⟩
  | dispatched hleg htarget hnext =>
      rcases hs.alters_of_leg hlookup hresult hleg with
        ⟨estate, detached, joiner, exitCode, body, waiting⟩
      exact ⟨⟨estate, detached, joiner, exitCode, body, waiting⟩,
        hs.moves_of_next hlookup hresult htarget hnext⟩
  | took hruns hrequest =>
      refine ⟨⟨rfl, .inl rfl, .inl rfl, .inl rfl, ?_, .inl ⟨rfl, rfl⟩⟩, .stays⟩
      cases hbody : b.body with
      | none => exact .inl rfl
      | some body => exact .inr ⟨rfl, rfl, (hs.runs_iff h).mp hruns, .inl hrequest⟩
  | detached hrequest =>
      refine ⟨⟨rfl, ?_, .inl rfl, .inl rfl, .inl rfl, .inl ⟨rfl, rfl⟩⟩, .stays⟩
      cases hdetached : b.isDetached with
      | true => exact .inl rfl
      | false =>
          exact .inr ⟨rfl, rfl, hrequest, Entry.answer?_eq_some_iff.mpr hresult⟩
  | @woken _ lines line count hlines hline hmem =>
      have hnamed := (hs.2.placed.mem_waiting_iff hget line).mp hmem
      have hstate : b.state = .blockedOnInterrupt := hcoherent.line.mp (by rw [hnamed]; rfl)
      have hcovers : e.request.covers line = true := covers_eq_true_iff.mpr ⟨lines, hlines, hline⟩
      have halive : e.earlier.Alive h := by
        refine ⟨b.life, ?_, hs.2.exitCode_eq_none hlookup (by simp [hstate])⟩
        rw [← hs.life?_eq]
        exact Table.life?_of_lookup hlookup
      refine ⟨⟨rfl, .inl rfl, .inl rfl, .inl rfl, .inl rfl, .inr (.inr ?_)⟩, ?_⟩
      · exact ⟨line, hcoherent.waiting.mpr hstate, hnamed, rfl, rfl, hcovers⟩
      · rw [hstate]
        exact .woken (hs.waitsOn_iff.mpr ⟨halive, hmem⟩) hcovers

theorem Shaped.treats (hs : e.earlier.Shaped o)
    (houtcome : e.outcome = e.earlier.perform e.supply e.request)
    (hlookup : e.earlier.table.lookup h = some b) (hlater : e.later.table.lookup h = some b') :
    e.Treats h b b' := by
  rcases hs.perform e.supply e.request with ⟨o', hstep, hs'⟩
  rw [← houtcome] at hstep hs'
  have hcourse := hstep.course hs.2 (hs.1.lookup_of_lookup hlookup) (hs'.1.lookup_of_lookup hlater)
  rcases hs.treats_of_course (hs.1.lookup_of_lookup hlookup) hcourse with
    ⟨⟨estate, detached, joiner, exitCode, body, waiting⟩, state⟩
  -- the law does not look at links
  exact ⟨⟨estate, detached, joiner, exitCode, body, waiting⟩, state⟩

theorem Entry.Alters.lasts (halters : e.Alters h b b') : Lasts b b' where
  estate := halters.estate
  detached := by
    intro hdetached
    rcases halters.detached with hsame | ⟨-, hlater, -⟩
    · exact hsame.trans hdetached
    · exact hlater
  joiner := by
    intro j hjoiner
    rcases halters.joiner with hsame | ⟨caller, hnone, -, -⟩
    · exact hsame.trans hjoiner
    · rw [hnone] at hjoiner
      cases hjoiner
  exitCode := by
    intro code hcode
    rcases halters.exitCode with hsame | ⟨code', hnone, -, -⟩
    · exact hsame.trans hcode
    · rw [hnone] at hcode
      cases hcode
  body := by
    intro hbody
    rcases halters.body with hsame | ⟨-, hlater, -, -⟩
    · exact hsame.trans hbody
    · exact hlater

theorem Lasts.refl (b : Block β) : Lasts b b :=
  ⟨rfl, id, fun _ => id, fun _ => id, id⟩

theorem Lasts.trans (h₁ : Lasts b b₁) (h₂ : Lasts b₁ b') : Lasts b b' where
  estate := h₂.estate.trans h₁.estate
  detached := fun hdetached => h₂.detached (h₁.detached hdetached)
  joiner := fun j hjoiner => h₂.joiner j (h₁.joiner j hjoiner)
  exitCode := fun code hcode => h₂.exitCode code (h₁.exitCode code hcode)
  body := fun hbody => h₂.body (h₁.body hbody)

end Step

/-!
# The law along a run
-/

section Runs

variable {s : Scheduler β} {o : Outline β} {h : Handle} {b b' : Block β}

/-- A thread that is there at the end of a run was there all along. -/
theorem Shaped.lasts_after (hs : s.Shaped o) (hlookup : s.table.lookup h = some b)
    {requests : List (Request β × Supply)}
    (hlater : (s.after requests).table.lookup h = some b') : Lasts b b' := by
  induction requests generalizing s o b with
  | nil =>
      rw [after_nil, hlookup] at hlater
      injection hlater with hb
      rw [hb]
      exact Lasts.refl b'
  | cons entry rest ih =>
      rcases entry with ⟨request, supply⟩
      rcases hs.perform supply request with ⟨o', -, hs'⟩
      cases hnext : (s.perform supply request).scheduler.table.lookup h with
      | some b₁ =>
          have hfirst := Shaped.treats (e := ⟨s, request, supply, s.perform supply request⟩) hs rfl
            hlookup hnext
          exact hfirst.toAlters.lasts.trans (ih hs' hnext hlater)
      | none =>
          have hgone : ¬ (s.after ([] ++ [(request, supply)] ++ rest)).Resolves h :=
            hs.not_resolves_again ⟨b, hlookup⟩ (not_resolves_iff.mpr hnext)
          exact absurd ⟨b', hlater⟩ hgone

theorem Shaped.begins_of_created (hs : s.Shaped o) {requests : List (Request β × Supply)}
    {e : Entry β} (he : e ∈ s.run requests) (hcreated : e.created? = some h) :
    ∃ b, e.later.table.lookup h = some b ∧ b.joiner = none ∧ b.exitCode = none ∧
      b.isWaiting = false ∧ b.line = none := by
  rcases exists_of_mem_run he with ⟨-, -, -, -, houtcome⟩
  rcases hs.step_of_mem_run he with ⟨o₁, o₂, hs₁, hs₂, hstep⟩
  rw [(hs₁.created?_eq_some_iff houtcome).mp hcreated] at hstep
  rcases hstep.lookup_of_handle hs₁.2 with ⟨c, hbegins, hlookup⟩
  rw [hs₂.1.lookup_eq] at hlookup
  rcases Option.map_eq_some_iff.mp hlookup with ⟨b, hb, hbare⟩
  have hfields : c.joiner = none ∧ c.exitCode = none ∧ c.isWaiting = false ∧ c.line = none := by
    generalize e.request = request at hbegins
    cases hbegins <;> exact ⟨rfl, rfl, rfl, rfl⟩
  rw [← hbare] at hfields
  exact ⟨b, hb, hfields⟩

end Runs

/-- In every run, every thread lives by the law from its creation until its block is removed. -/
theorem keepsLaw_create (config : Config) (requests : List (Request β × Supply)) :
    (create config).KeepsLaw requests := by
  have hcreated : (create config : Scheduler β).Shaped _ := shaped_create config
  constructor
  · intro e he h hnew
    exact hcreated.begins_of_created he hnew
  · intro e he h b b' hlookup hlater
    rcases exists_of_mem_run he with ⟨-, -, -, -, houtcome⟩
    rcases hcreated.step_of_mem_run he with ⟨o, -, hs, -, -⟩
    exact hs.treats houtcome hlookup hlater
  · intro first next rest _ h b b' hlookup hlater
    rcases hcreated.after first with ⟨o, hs⟩
    rw [after_append] at hlater
    exact hs.lasts_after hlookup hlater

end Scheduler

end Coop
