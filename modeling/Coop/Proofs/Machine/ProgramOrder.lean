import Coop.Proofs.Machine.History
import Coop.Proofs.Machine.Joining

/-!
# Threads follow their code

Whatever a machine does, its history explains it: the code that takes a turn is that of
the thread that has the processor, and each thread goes on where its last deed left it.
Every step of a machine keeps it so, which is proved in two halves.  The background of
a view is what holds of the threads that do not run, and of all exit codes.  Its story
is what the running thread is in the middle of.
-/

namespace Coop

open Thread (Block Handle Id Life)

namespace History

variable {σ δ : Type}

/-!
# What a history says about a thread
-/

/-- A thread may be answered so: its line fired, or its target exited with that code. -/
structure Justifies (p : History σ) (i : Id) (call? : Option (Call (Body σ))) (reply : Reply) :
    Prop where
  wait : ∀ line, call? = some (.wait line) → p.heard i line = true
  join : ∀ h, call? = some (.join h) → ∃ code, reply = .code code ∧ (h.id, code) ∈ p.said

/-- It is a thread's turn to go on like this: it begins its body, or goes on after its last deed. -/
inductive Due (p : History σ) (i : Id) (c : Caller σ) (reply? : Option Reply) : Prop where
  | first {body : Body σ} : p.last i = none → p.given i = some body → c = body.caller →
      reply? = none → Due p i c reply?
  | next {d : Deed σ} : p.last i = some d → d.next = some c →
      (∀ reply, reply? = some reply → p.Justifies i d.call? reply) → Due p i c reply?

def Calls (p : History σ) (i : Id) (c : Call (Body σ)) (caller : Caller σ) : Prop :=
  ∃ d, p.last i = some d ∧ d.call? = some c ∧ d.next = if c.returns then some caller else none

structure Suspended (p : History σ) (s : Scheduler (Body σ)) (i : Id) (c : Call (Body σ))
    (resume : Resume) (caller : Caller σ) : Prop where
  calls : p.Calls i c caller
  pauses : c.Pauses resume
  lived : i < s.nextId
  waits : ∀ line, c = .wait line → p.heard i line = true ∨ ∃ h, h.id = i ∧ s.WaitsOn h line
  exits : c.returns = false → s.Departed i

/-- A thread has not begun, and has the body that it was given. -/
structure Fresh (p : History σ) (s : Scheduler (Body σ)) (h : Handle) : Prop where
  last : p.last h.id = none
  started : h.id ∉ p.started
  body : ∃ b body, s.table.lookup h = some b ∧ b.body = some body ∧ p.given h.id = some body

inductive Story (p : History σ) (s : Scheduler (Body σ)) (i : Id) : Phase σ δ → Prop where
  | due {phase : Phase σ δ} {c : Caller σ} : s.RunsAs i → phase.caller? = some c →
      p.Due i c phase.reply? → Story p s i phase
  | invokes {c : Call (Body σ)} {caller : Caller σ} : s.RunsAs i → p.Calls i c caller →
      Story p s i (.invoke c caller)
  | asks {guard : Guard} {c : Call (Body σ)} {caller : Caller σ} : s.RunsAs i →
      p.Calls i c caller → Story p s i (.schedule guard c caller)
  | leaves {guard : Guard} {t : Transfer} {c : Call (Body σ)} {resume : Resume}
      {caller : Caller σ} : s.running = .ok t.target → t.source.id = i →
        p.Suspended s i c resume caller → Story p s i (.switch guard t resume caller)
  | resumes {guard : Guard} {c : Call (Body σ)} {resume : Resume} {caller : Caller σ} :
      s.RunsAs i → p.Suspended s i c resume caller → Story p s i (.resume guard resume caller)
  | starts {h : Handle} : s.running = .ok h → h.id = i → p.Fresh s h → Story p s i .start
  | answers {guard : Guard} {c : Call (Body σ)} {r : Except Error Reply} {caller : Caller σ} :
      s.RunsAs i → p.Calls i c caller → c.returns = true →
        (∀ reply, r = .ok reply → p.Justifies i (some c) reply) →
          Story p s i (.answer guard r caller)
  | ended {why : Ended} : s.RunsAs i → Story p s i (.stopped why)

structure Background (p : History σ) (v : View σ δ) : Prop where
  shaped : ∃ o, v.scheduler.Shaped o
  frames : ∀ i frame, i ≠ v.running → v.frames.get? i = some frame →
    ∃ c, p.Suspended v.scheduler i c frame.resume frame.caller
  fresh : ∀ h, v.scheduler.Alive h → h.id ≠ v.running → v.frames.get? h.id = none →
    p.Fresh v.scheduler h
  said : ∀ h l code, v.scheduler.life? h = some l → l.exitCode = some code →
    (h.id, code) ∈ p.said
  unborn : ∀ i, v.scheduler.nextId ≤ i → i ≠ v.running → p.last i = none ∧ i ∉ p.started
  asked : ∀ i d code, p.last i = some d → d.call? = some (.exit code) → (i, code) ∈ p.said

structure Explains (p : History σ) (v : View σ δ) : Prop extends p.Background v where
  story : p.Story v.scheduler v.running v.phase

/-!
# The scheduler deals with a request
-/

section Requests

variable {p : History σ} {v : View σ δ} {s : Scheduler (Body σ)} {o : Outline (Body σ)} {i : Id}
  {h : Handle} {request : Request (Body σ)} {result : Except Error (Answer (Body σ))}
  {supply : Supply}

theorem Justifies.note {call? : Option (Call (Body σ))} {reply : Reply}
    (hjustifies : p.Justifies i call? reply) : (p.note request result).Justifies i call? reply where
  wait := by
    intro line hcall
    show (p.heard i line || request.covers line) = true
    rw [hjustifies.wait line hcall]
    rfl
  join := hjustifies.join

theorem Suspended.note {c : Call (Body σ)} {resume : Resume} {caller : Caller σ} (hs : s.Shaped o)
    (hsuspended : p.Suspended s i c resume caller) (supply : Supply)
    (request : Request (Body σ)) (result : Except Error (Answer (Body σ))) :
    (p.note request result).Suspended (s.perform supply request).scheduler i c resume caller where
  calls := hsuspended.calls
  pauses := hsuspended.pauses
  lived := Nat.lt_of_lt_of_le hsuspended.lived (hs.nextId_le_perform supply request)
  waits := by
    intro line hc
    show (p.heard i line || request.covers line) = true ∨ _
    cases hcovers : request.covers line with
    | true => exact .inl (Bool.or_true _)
    | false =>
        rw [Bool.or_false]
        rcases hsuspended.waits line hc with hheard | ⟨h, hid, hwaits⟩
        · exact .inl hheard
        · exact .inr ⟨h, hid, hs.waitsOn_perform hwaits supply hcovers⟩
  exits := fun hreturns => hs.departed_perform (hsuspended.exits hreturns)

theorem given_note_of_ne {i : Id} (hne : ∀ h, result = .ok (.handle h) → h.id ≠ i) :
    (p.note request result).given i = p.given i := by
  unfold History.note
  split
  · exact Function.update_of_ne (hne _ rfl).symm _ _
  · rfl

theorem Fresh.note (hs : s.Shaped o) (hfresh : p.Fresh s h) (halive : s.Alive h) (supply : Supply)
    (request : Request (Body σ)) (hkeeps : s.running = .ok h → request.keepsBody = true) :
    (p.note request (s.perform supply request).result).Fresh (s.perform supply request).scheduler
      h where
  last := hfresh.last
  started := hfresh.started
  body := by
    rcases hfresh.body with ⟨b, body, hlookup, hbody, hgiven⟩
    rcases hs.body_perform halive hkeeps hlookup with ⟨b', hlookup', hsame⟩
    refine ⟨b', body, hlookup', hsame.trans hbody, ?_⟩
    -- a new thread has a new identifier, so what was given to this one is not overwritten
    rw [given_note_of_ne, hgiven]
    intro h' hresult hid
    have hlt := hs.id_lt_of_alive halive
    rw [← hid, (hs.id_of_handle hresult).1] at hlt
    exact Nat.lt_irrefl _ hlt

structure Asks (p : History σ) (v : View σ δ) (supply : Supply) (request : Request (Body σ)) :
    Prop where
  bodies : ∀ h, v.scheduler.running = .ok h → h.id ≠ v.running → request.keepsBody = true
  codes : ∀ h code, v.scheduler.running = .ok h → request = .exit code → (h.id, code) ∈ p.said
  births : ∀ h, v.answer supply request = .ok (.handle h) → h.id ≠ v.running →
    ∃ spec body, request = .spawn spec body

theorem Background.perform (hback : p.Background v)
    (hasks : p.Asks v supply request) :
    (p.note request (v.answer supply request)).Background (v.perform supply request) := by
  rcases hback.shaped with ⟨o, hs⟩
  rcases hs.perform supply request with ⟨o', -, hs'⟩
  refine ⟨⟨o', hs'⟩, ?_, ?_, ?_, ?_, hback.asked⟩
  · intro i frame hne hget
    rcases hback.frames i frame hne hget with ⟨c, hsuspended⟩
    exact ⟨c, hsuspended.note hs supply request _⟩
  · intro h halive hne hget
    -- whoever lives now lived before, or was just spawned with the body that is written down
    rcases hs.alive_earlier halive with hearlier | hresult
    · exact (hback.fresh h hearlier hne hget).note hs hearlier supply request
        fun hrunning => hasks.bodies h hrunning hne
    · have hid := hs.id_of_handle hresult
      have hunborn := hback.unborn h.id (Nat.le_of_eq hid.1.symm) hne
      rcases hasks.births h hresult hne with ⟨spec, body, rfl⟩
      rcases hs.body_of_spawn hresult with ⟨b, hlookup, hbody⟩
      refine ⟨hunborn.1, hunborn.2, b, body, hlookup, hbody, ?_⟩
      have hanswer : v.answer supply (.spawn spec body) = .ok (.handle h) := hresult
      rw [hanswer]
      exact Function.update_self _ _ _
  · intro h l code hlife hcode
    rcases hs.code_earlier hlife hcode with ⟨l₀, hbefore, hcode₀⟩ | ⟨hrunning, hrequest⟩
    · exact hback.said h l₀ code hbefore hcode₀
    · exact hasks.codes h code hrunning hrequest
  · intro i hi hne
    exact hback.unborn i (Nat.le_trans (hs.nextId_le_perform supply request) hi) hne

theorem asks_of_runsAs (hs : v.scheduler.Shaped o) (hruns : v.scheduler.RunsAs v.running)
    (supply : Supply) (hcodes : ∀ code, request = .exit code → (v.running, code) ∈ p.said) :
    p.Asks v supply request where
  bodies := fun h hrunning hne => absurd (hruns.id_eq hrunning) hne
  codes := by
    intro h code hrunning hrequest
    rw [hruns.id_eq hrunning]
    exact hcodes code hrequest
  births := by
    intro h hresult hne
    rcases hs.request_of_handle hresult with ⟨-, hcurrent⟩ | hspawn
    · -- only the main thread comes without a body, and it is the one that runs
      rcases hruns with ⟨h', hrunning, -⟩ | ⟨-, hnext, hi⟩
      · have hsome := (Scheduler.running_eq_ok_iff.mp hrunning).1
        rw [hcurrent] at hsome
        cases hsome
      · exact absurd ((hs.id_of_handle hresult).1.trans (hnext.trans hi.symm)) hne
    · exact hspawn

theorem asks_interrupts (p : History σ) (hs : v.scheduler.Shaped o) (supply : Supply)
    (mask : Mask) :
    p.Asks v supply (.interrupts mask) where
  bodies := fun _ _ _ => rfl
  codes := by
    intro h code _ hrequest
    cases hrequest
  births := by
    intro h hresult _
    rcases hs.request_of_handle hresult with ⟨hrequest, -⟩ | ⟨spec, body, hrequest⟩
    · cases hrequest
    · cases hrequest

theorem note_eq (hcovers : ∀ line, request.covers line = false)
    (hspawn : ∀ spec body, request ≠ .spawn spec body) : p.note request result = p := by
  have hheard : (fun i line => p.heard i line || request.covers line) = p.heard := by
    funext i line
    rw [hcovers, Bool.or_false]
  unfold History.note
  rw [hheard]
  split
  · exact absurd rfl (hspawn _ _)
  · rfl

end Requests

/-!
# Thread code takes its turn
-/

section Turns

variable {p : History σ} {v : View σ δ} {s : Scheduler (Body σ)} {i j : Id} {c : Call (Body σ)}
  {d : Deed σ} {resume : Resume} {caller : Caller σ}

theorem last_act_self (p : History σ) (i : Id) (d : Deed σ) : (p.act i d).last i = some d :=
  Function.update_self _ _ _

theorem last_act_of_ne (hne : i ≠ j) : (p.act j d).last i = p.last i :=
  Function.update_of_ne hne _ _

theorem mem_said_act {entry : Id × Int32} (hmem : entry ∈ p.said) : entry ∈ (p.act i d).said := by
  unfold act
  split
  · exact List.mem_cons_of_mem _ hmem
  · exact hmem

theorem Suspended.act (hsuspended : p.Suspended s i c resume caller) (hne : i ≠ j) (d : Deed σ) :
    (p.act j d).Suspended s i c resume caller where
  calls := by
    rw [Calls, last_act_of_ne hne]
    exact hsuspended.calls
  pauses := hsuspended.pauses
  lived := hsuspended.lived
  waits := by
    have hheard : (p.act j d).heard i = p.heard i := Function.update_of_ne hne _ _
    rw [hheard]
    exact hsuspended.waits
  exits := hsuspended.exits

theorem Background.act (hback : p.Background v) (d : Deed σ) (phase : Phase σ δ) :
    (p.act v.running d).Background (v.goTo phase) where
  shaped := hback.shaped
  frames := by
    intro i frame hne hget
    rcases hback.frames i frame hne hget with ⟨c, hsuspended⟩
    exact ⟨c, hsuspended.act hne d⟩
  fresh := by
    intro h halive hne hget
    have hfresh := hback.fresh h halive hne hget
    exact ⟨(last_act_of_ne hne).trans hfresh.last, hfresh.started, hfresh.body⟩
  said := fun h l code hlife hcode => mem_said_act (hback.said h l code hlife hcode)
  unborn := by
    intro i hi hne
    have hlast : (p.act v.running d).last i = p.last i := last_act_of_ne hne
    rw [hlast]
    exact hback.unborn i hi hne
  asked := by
    intro i d' code hlast hcall
    by_cases hrunner : i = v.running
    · rw [hrunner, last_act_self] at hlast
      injection hlast with hd
      rw [← hd] at hcall
      unfold History.act
      rw [hcall, hrunner]
      exact List.mem_cons_self
    · rw [last_act_of_ne hrunner] at hlast
      exact mem_said_act (hback.asked i d' code hlast hcall)

theorem Story.turn {phase : Phase σ δ} (hstory : p.Story s i phase) {c : Caller σ}
    (hcaller : phase.caller? = some c) : s.RunsAs i ∧ p.Due i c phase.reply? := by
  cases hstory with
  | @due _ c' hruns hcaller' hdue =>
      rw [hcaller] at hcaller'
      injection hcaller' with hc
      rw [hc]
      exact ⟨hruns, hdue⟩
  | _ => cases hcaller

theorem Story.act {next : Phase σ δ} (hruns : s.RunsAs i) (hleads : d.Leads next) :
    (p.act i d).Story s i next := by
  have hlast := last_act_self p i d
  cases hleads with
  | stops => exact .ended hruns
  | calls hcall hnext => exact .invokes hruns ⟨d, hlast, hcall, hnext⟩
  | goesOn _ hnext hcaller hreply =>
      refine .due hruns hcaller (.next hlast hnext ?_)
      intro reply hsome
      rw [hreply] at hsome
      cases hsome

end Turns

/-!
# Steps of machines
-/

section Steps

variable {p : History σ} {v : View σ δ} {s : Scheduler (Body σ)} {o : Outline (Body σ)} {i : Id}
  {c : Call (Body σ)} {request : Request (Body σ)} {supply : Supply} {resume : Resume}
  {caller : Caller σ} {guard : Guard} {t : Transfer}

theorem eq_exit_of_request? {β : Type} {c : Call β} {code : Int32}
    (hrequest : c.request? = some (.exit code)) : c = .exit code := by
  cases c <;> cases hrequest
  rfl

theorem Background.mem_said (hback : p.Background v) (hcalls : p.Calls v.running c caller)
    (hrequest : c.request? = some request) :
    ∀ code, request = .exit code → (v.running, code) ∈ p.said := by
  rintro code rfl
  rcases hcalls with ⟨d, hlast, hcall, -⟩
  rw [eq_exit_of_request? hrequest] at hcall
  exact hback.asked v.running d code hlast hcall

theorem justifies_other (hwait : ∀ line, c ≠ .wait line) (hjoin : ∀ target, c ≠ .join target)
    (reply : Reply) : p.Justifies i (some c) reply where
  wait := fun line hc => absurd (Option.some.inj hc) (hwait line)
  join := fun h hc => absurd (Option.some.inj hc) (hjoin h)

theorem Background.justifies_join (hback : p.Background v) {target : Handle} {code : Int32}
    (hjoins : request.joins? = some target) (hanswer : v.answer supply request = .ok (.code code)) :
    p.Justifies i (some (.join target)) (.code code) where
  wait := by
    intro line hc
    cases hc
  join := by
    intro h hc
    cases hc
    rcases hback.shaped with ⟨o, hs⟩
    rcases hs.code_of_joins hjoins hanswer with ⟨l, hlife, hcode⟩
    exact ⟨code, rfl, hback.said target l code hlife hcode⟩

theorem Background.goTo (hback : p.Background v) (phase : Phase σ δ) :
    p.Background (v.goTo phase) :=
  ⟨hback.shaped, hback.frames, hback.fresh, hback.said, hback.unborn, hback.asked⟩

theorem Explains.story_of_phase (he : p.Explains v) {phase : Phase σ δ} (hphase : v.phase = phase) :
    p.Story v.scheduler v.running phase := by
  rw [← hphase]
  exact he.story

theorem Explains.asks (he : p.Explains v) (hphase : v.phase = .schedule guard c caller) :
    v.scheduler.RunsAs v.running ∧ p.Calls v.running c caller := by
  cases he.story_of_phase hphase with
  | due _ hcaller _ => cases hcaller
  | asks hruns hcalls => exact ⟨hruns, hcalls⟩

theorem Explains.noted (he : p.Explains v) (hphase : v.phase = .schedule guard c caller)
    (hrequest : c.request? = some request) (supply : Supply) :
    (p.note request (v.answer supply request)).Background (v.perform supply request) := by
  rcases he.shaped with ⟨o, hs⟩
  rcases he.asks hphase with ⟨hruns, hcalls⟩
  exact he.toBackground.perform (asks_of_runsAs hs hruns supply (he.mem_said hcalls hrequest))

theorem Explains.answered (he : p.Explains v) (hphase : v.phase = .schedule guard c caller)
    (hrequest : c.request? = some request)
    (hstays : ∀ t, v.answer supply request ≠ .ok (.transfer t)) {r : Except Error Reply}
    (hanswers : c.Answers (some (v.answer supply request)) r) :
    (p.note request (v.answer supply request)).Explains
      ((v.perform supply request).goTo (.answer guard r caller)) := by
  rcases he.shaped with ⟨o, hs⟩
  rcases he.asks hphase with ⟨hruns, hcalls⟩
  refine ⟨(he.noted hphase hrequest supply).goTo _, ?_⟩
  refine .answers (hs.runsAs_perform hruns hstays) hcalls hanswers.returns ?_
  rintro reply rfl
  generalize hanswer : v.answer supply request = answer at hanswers
  cases hanswers with
  | other _ hwait hjoin => exact justifies_other hwait hjoin reply
  | joined =>
      cases hrequest
      exact (he.justifies_join rfl hanswer).note

theorem Explains.panicked (he : p.Explains v) {code : Int32} {e : Error}
    (hphase : v.phase = .schedule guard (.exit code) caller)
    (herror : v.answer supply (.exit code) = .error e) (why : Ended) :
    (p.note (.exit code) (v.answer supply (.exit code))).Explains
      ((v.perform supply (.exit code)).goTo (.stopped why)) := by
  rcases he.shaped with ⟨o, hs⟩
  rcases he.asks hphase with ⟨hruns, hcalls⟩
  refine ⟨(he.noted hphase rfl supply).goTo _, .ended (hs.runsAs_perform hruns ?_)⟩
  intro t htransfer
  have hresult := herror.symm.trans htransfer
  cases hresult

theorem Explains.told (he : p.Explains v) (hphase : v.phase = .schedule guard c caller)
    {r : Except Error Reply} (hanswers : c.Answers none r) :
    p.Explains (v.goTo (.answer guard r caller)) := by
  rcases he.asks hphase with ⟨hruns, hcalls⟩
  refine ⟨he.toBackground.goTo _, .answers hruns hcalls hanswers.returns ?_⟩
  rintro reply rfl
  cases hanswers with
  | other _ hwait hjoin => exact justifies_other hwait hjoin reply

theorem Explains.paused (he : p.Explains v) (hphase : v.phase = .schedule guard c caller)
    (hrequest : c.request? = some request) (hpauses : c.Pauses resume)
    (htransfer : v.answer supply request = .ok (.transfer t)) :
    (p.note request (v.answer supply request)).Explains
      ((v.perform supply request).goTo (.switch guard t resume caller)) := by
  rcases he.shaped with ⟨o, hs⟩
  rcases he.asks hphase with ⟨hruns, hcalls⟩
  have hrunning := hs.running_source htransfer
  have hsource := hruns.id_eq hrunning
  refine ⟨(he.noted hphase hrequest supply).goTo _, ?_⟩
  refine .leaves (c := c) (hs.running_of_transfer htransfer) hsource ⟨hcalls, hpauses, ?_, ?_, ?_⟩
  · have hlt := hs.id_lt_of_alive (hs.alive_of_running hrunning)
    rw [hsource] at hlt
    exact Nat.lt_of_lt_of_le hlt (hs.nextId_le_perform supply request)
  · rintro line rfl
    cases hrequest
    exact .inr ⟨t.source, hsource, hs.waitsOn_of_wait htransfer⟩
  · intro hreturns
    cases c <;> cases hreturns
    cases hrequest
    have hdeparted := hs.departed_of_exit htransfer
    rw [hsource] at hdeparted
    exact hdeparted

/-- When a thread that waited has the processor again, its line has fired. -/
theorem Suspended.heard (hs : s.Shaped o) (hruns : s.RunsAs i)
    (hsuspended : p.Suspended s i c resume caller) {line : Line} (hc : c = .wait line) :
    p.heard i line = true := by
  rcases hsuspended.waits line hc with hheard | ⟨h, hid, hwaits⟩
  · exact hheard
  · -- whoever still waits does not run
    have hrunning := hs.running_of_runsAs hruns (hs.waitsOn_iff.mp hwaits).1 hid
    exact absurd hwaits (hs.not_waitsOn_of_running hrunning)

section Switches

variable {frame frame' : Frame σ}

theorem Explains.leaves (he : p.Explains v) (hphase : v.phase = .switch guard t resume caller) :
    v.scheduler.running = .ok t.target ∧ t.source.id = v.running ∧
      ∃ c, p.Suspended v.scheduler v.running c resume caller := by
  cases he.story_of_phase hphase with
  | due _ hphase _ => cases hphase
  | leaves hrunning hsource hsuspended => exact ⟨hrunning, hsource, _, hsuspended⟩

theorem get?_suspended (v : View σ δ) (source : Handle) (frame : Frame σ) (i : Id) :
    (v.suspended source frame).get? i = if i = source.id then some frame else v.frames.get? i :=
  Frames.get?_put v.frames source.id i frame

theorem Explains.suspended (he : p.Explains v) (hphase : v.phase = .switch guard t resume caller)
    (hresume : frame.resume = resume) (hcaller : frame.caller = caller)
    (hget : (v.suspended t.source frame).get? i = some frame') :
    ∃ c, p.Suspended v.scheduler i c frame'.resume frame'.caller := by
  rcases he.leaves hphase with ⟨-, hsource, c, hsuspended⟩
  rw [get?_suspended] at hget
  by_cases hid : i = t.source.id
  · rw [if_pos hid] at hget
    injection hget with hframe
    rw [← hframe, hresume, hcaller, hid, hsource]
    exact ⟨c, hsuspended⟩
  · rw [if_neg hid] at hget
    rw [hsource] at hid
    exact he.frames i frame' hid hget

theorem Explains.fresh_of_suspended (he : p.Explains v)
    (hphase : v.phase = .switch guard t resume caller) {h : Handle} (halive : v.scheduler.Alive h)
    (hget : (v.suspended t.source frame).get? h.id = none) : p.Fresh v.scheduler h := by
  rcases he.leaves hphase with ⟨-, hsource, -⟩
  rw [get?_suspended] at hget
  by_cases hid : h.id = t.source.id
  · rw [if_pos hid] at hget
    cases hget
  · rw [if_neg hid] at hget
    rw [hsource] at hid
    exact he.fresh h halive hid hget

theorem Explains.switch (he : p.Explains v) (hphase : v.phase = .switch guard t resume caller)
    (hresume : frame.resume = resume) (hcaller : frame.caller = caller) {f : Frames σ}
    (hframes : ∀ i, i ≠ t.target.id → f.get? i = (v.suspended t.source frame).get? i)
    (phase : Phase σ δ) : p.Background ⟨v.scheduler, f, t.target.id, phase⟩ where
  shaped := he.shaped
  frames := by
    intro i frame' hne hget
    rw [hframes i hne] at hget
    exact he.suspended hphase hresume hcaller hget
  fresh := by
    intro h halive hne hget
    rw [hframes h.id hne] at hget
    exact he.fresh_of_suspended hphase halive hget
  said := he.said
  unborn := by
    intro i hi hne
    rcases he.leaves hphase with ⟨-, -, c, hsuspended⟩
    exact he.unborn i hi (Nat.ne_of_gt (Nat.lt_of_lt_of_le hsuspended.lived hi))
  asked := he.asked

theorem Explains.switched (he : p.Explains v) (hphase : v.phase = .switch guard t resume caller)
    (hresume : frame.resume = resume) (hcaller : frame.caller = caller)
    (hget : (v.suspended t.source frame).get? t.target.id = none) :
    p.Explains (⟨v.scheduler, v.suspended t.source frame, t.target.id, .start⟩ : View σ δ) := by
  rcases he.shaped with ⟨o, hs⟩
  have hrunning := (he.leaves hphase).1
  have hfresh := he.fresh_of_suspended hphase (hs.alive_of_running hrunning) hget
  exact ⟨he.switch hphase hresume hcaller (fun _ _ => rfl) _, .starts hrunning rfl hfresh⟩

theorem Explains.resumed (he : p.Explains v) (hphase : v.phase = .switch guard t resume caller)
    (hresume : frame.resume = resume) (hcaller : frame.caller = caller)
    (hget : (v.suspended t.source frame).get? t.target.id = some frame') :
    p.Explains (⟨v.scheduler, (v.suspended t.source frame).erase t.target.id, t.target.id,
      .resume frame'.guard frame'.resume frame'.caller⟩ : View σ δ) := by
  rcases he.suspended hphase hresume hcaller hget with ⟨c, hsuspended⟩
  have hframes : ∀ i, i ≠ t.target.id → ((v.suspended t.source frame).erase t.target.id).get? i =
      (v.suspended t.source frame).get? i := by
    intro i hne
    rw [Frames.get?_erase, if_neg hne]
  exact ⟨he.switch hphase hresume hcaller hframes _,
    .resumes (.inl ⟨t.target, (he.leaves hphase).1, rfl⟩) hsuspended⟩

end Switches

/-!
## Threads that have the processor again
-/

theorem Explains.resumes (he : p.Explains v) (hphase : v.phase = .resume guard resume caller) :
    v.scheduler.RunsAs v.running ∧ ∃ c, p.Suspended v.scheduler v.running c resume caller := by
  cases he.story_of_phase hphase with
  | due _ hphase _ => cases hphase
  | resumes hruns hsuspended => exact ⟨hruns, _, hsuspended⟩

theorem Explains.not_never (he : p.Explains v) (guard : Guard) (caller : Caller σ) :
    v.phase ≠ .resume guard .never caller := by
  intro hphase
  rcases he.shaped with ⟨o, hs⟩
  rcases he.resumes hphase with ⟨hruns, c, hsuspended⟩
  have hreturns : c.returns = false := by
    cases hsuspended.pauses
    rfl
  exact hs.not_departed hruns (hsuspended.exits hreturns)

theorem Background.perform_unseen (hback : p.Background v) (hruns : v.scheduler.RunsAs v.running)
    (supply : Supply) (request : Request (Body σ)) (hcovers : ∀ line, request.covers line = false)
    (hspawn : ∀ spec body, request ≠ .spawn spec body) (hexit : ∀ code, request ≠ .exit code) :
    p.Background (v.perform supply request) := by
  rcases hback.shaped with ⟨o, hs⟩
  have hnoted := hback.perform (asks_of_runsAs hs hruns supply fun code h => absurd h (hexit code))
  rw [note_eq hcovers hspawn] at hnoted
  exact hnoted

theorem Background.completeSwitch (hback : p.Background v) (hruns : v.scheduler.RunsAs v.running)
    (supply : Supply) : p.Background (v.perform supply .completeSwitch) ∧
      (v.perform supply .completeSwitch).scheduler.RunsAs v.running := by
  rcases hback.shaped with ⟨o, hs⟩
  refine ⟨hback.perform_unseen hruns supply _ (fun _ => rfl) (by simp) (by simp), ?_⟩
  exact hs.runsAs_perform hruns (Scheduler.perform_ne_transfer rfl)

theorem Explains.completed (he : p.Explains v) (hphase : v.phase = .resume guard .plain caller)
    (supply : Supply) : p.Explains
      ((v.perform supply .completeSwitch).goTo (.answer guard (.ok .done) caller)) := by
  rcases he.shaped with ⟨o, hs⟩
  rcases he.resumes hphase with ⟨hruns, c, hsuspended⟩
  rcases he.toBackground.completeSwitch hruns supply with ⟨hback, hruns'⟩
  refine ⟨hback.goTo _, .answers hruns' hsuspended.calls ?_ ?_⟩
  · cases hsuspended.pauses <;> rfl
  · rintro reply -
    constructor
    · intro line hc
      exact hsuspended.heard hs hruns (Option.some.inj hc)
    · intro h hc
      have hpauses := hsuspended.pauses
      rw [Option.some.inj hc] at hpauses
      cases hpauses

theorem Explains.collected (he : p.Explains v) {h : Handle}
    (hphase : v.phase = .resume guard (.collect h) caller) {r : Except Error Int32}
    (hanswer : (v.perform supply .completeSwitch).answer supply (.collect h) = r.map .code) :
    p.Explains (((v.perform supply .completeSwitch).perform supply (.collect h)).goTo
      (.answer guard (r.map .code) caller)) := by
  rcases he.resumes hphase with ⟨hruns, c, hsuspended⟩
  rcases he.toBackground.completeSwitch hruns supply with ⟨hback, hruns'⟩
  rcases hback.shaped with ⟨o, hs⟩
  have hcollected := hback.perform_unseen hruns' supply (.collect h) (fun _ => rfl) (by simp)
    (by simp)
  have hc : c = .join h := by
    cases hsuspended.pauses
    rfl
  refine ⟨hcollected.goTo _, .answers ?_ hsuspended.calls ?_ ?_⟩
  · exact hs.runsAs_perform hruns' (Scheduler.perform_ne_transfer rfl)
  · rw [hc]
    rfl
  · intro reply hr
    cases r with
    | error e => cases hr
    | ok code =>
        cases hr
        rw [hc]
        exact hback.justifies_join rfl hanswer

/-!
## Threads that begin
-/

theorem Explains.starts (he : p.Explains v) (hphase : v.phase = .start) :
    ∃ h, v.scheduler.running = .ok h ∧ h.id = v.running ∧ p.Fresh v.scheduler h := by
  cases he.story_of_phase hphase with
  | due _ hphase _ => cases hphase
  | starts hrunning hid hfresh => exact ⟨_, hrunning, hid, hfresh⟩

theorem Explains.takes (he : p.Explains v) (hphase : v.phase = .start) (supply : Supply) :
    ∃ body, p.given v.running = some body ∧
      (v.perform supply .completeSwitch).answer supply .takeBody = .ok (.body (some body)) := by
  rcases he.shaped with ⟨o, hs⟩
  rcases he.starts hphase with ⟨h, hrunning, hid, hfresh⟩
  have hfresh' := hfresh.note hs (hs.alive_of_running hrunning) supply .completeSwitch fun _ => rfl
  rw [note_eq (fun _ => rfl) (by simp)] at hfresh'
  have hrunning' : (v.perform supply .completeSwitch).scheduler.running = .ok h :=
    hs.running_perform hrunning (Scheduler.perform_ne_transfer rfl)
  rcases hfresh'.body with ⟨b, body, hlookup, hbody, hgiven⟩
  rw [hid] at hgiven
  refine ⟨body, hgiven, ?_⟩
  rw [← hbody]
  exact Scheduler.answer_takeBody hrunning' hlookup

theorem Background.start (hback : p.Background v) : (p.start v.running).Background v where
  shaped := hback.shaped
  frames := by
    intro i frame hne hget
    rcases hback.frames i frame hne hget with ⟨c, ⟨calls, pauses, lived, waits, exits⟩⟩
    exact ⟨c, ⟨calls, pauses, lived, waits, exits⟩⟩
  fresh := by
    intro h halive hne hget
    have hfresh := hback.fresh h halive hne hget
    exact ⟨hfresh.last, List.not_mem_cons_of_ne_of_not_mem hne hfresh.started, hfresh.body⟩
  said := hback.said
  unborn := by
    intro i hi hne
    have hunborn := hback.unborn i hi hne
    exact ⟨hunborn.1, List.not_mem_cons_of_ne_of_not_mem hne hunborn.2⟩
  asked := hback.asked

theorem Explains.began (he : p.Explains v) (hphase : v.phase = .start) {body : Body σ}
    (hanswer : (v.perform supply .completeSwitch).answer supply .takeBody =
      .ok (.body (some body))) :
    (p.start v.running).Explains
      (((v.perform supply .completeSwitch).perform supply .takeBody).goTo body.phase) := by
  rcases he.starts hphase with ⟨h, hrunning, hid, hfresh⟩
  rcases he.takes hphase supply with ⟨body', hgiven, htook⟩
  rw [hanswer] at htook
  cases htook
  have hruns : v.scheduler.RunsAs v.running := .inl ⟨h, hrunning, hid⟩
  rcases he.toBackground.completeSwitch hruns supply with ⟨hback, hruns'⟩
  rcases hback.shaped with ⟨o, hs⟩
  have htaken := hback.perform_unseen hruns' supply .takeBody (fun _ => rfl) (by simp) (by simp)
  have hruns'' : ((v.perform supply .completeSwitch).perform supply .takeBody).scheduler.RunsAs
      v.running :=
    hs.runsAs_perform hruns' (Scheduler.perform_ne_transfer rfl)
  refine ⟨htaken.start.goTo _, ?_⟩
  have hlast : p.last v.running = none := by
    rw [← hid]
    exact hfresh.last
  cases body with
  | code state => exact .due hruns'' rfl (.first hlast hgiven rfl rfl)
  | idle => exact .due hruns'' rfl (.first hlast hgiven rfl rfl)

/-!
## Every step
-/

theorem Explains.replied (he : p.Explains v) {r : Except Error Reply}
    (hphase : v.phase = .answer guard r caller) : p.Explains (v.goTo (caller.phase r)) := by
  cases he.story_of_phase hphase with
  | due _ hcaller _ => cases hcaller
  | answers hruns hcalls hreturns hjustifies =>
      rcases hcalls with ⟨d, hlast, hcall, hnext⟩
      rw [hreturns, if_pos rfl] at hnext
      refine ⟨he.toBackground.goTo _, ?_⟩
      cases caller with
      | locking k state => exact .due hruns rfl (.next hlast hnext fun _ hreply => nomatch hreply)
      | idle => exact .due hruns rfl (.next hlast hnext fun _ hreply => nomatch hreply)
      | code state =>
          refine .due hruns rfl (.next hlast hnext ?_)
          intro reply hreply
          rw [hcall]
          cases r with
          | error e => cases hreply
          | ok reply' =>
              cases hreply
              exact hjustifies reply rfl

theorem Story.note (hs : s.Shaped o) {phase : Phase σ δ} (hstory : p.Story s i phase) (mask : Mask)
    (supply : Supply) :
    (p.note (.interrupts mask) (s.perform supply (.interrupts mask)).result).Story
      (s.perform supply (.interrupts mask)).scheduler i phase := by
  have hstays : ∀ t, (s.perform supply (.interrupts mask)).result ≠ .ok (.transfer t) :=
    Scheduler.perform_ne_transfer rfl
  cases hstory with
  | due hruns hcaller hdue =>
      refine .due (hs.runsAs_perform hruns hstays) hcaller ?_
      cases hdue with
      | first hlast hgiven hc hreply => exact .first hlast hgiven hc hreply
      | next hlast hnext hjustifies =>
          exact .next hlast hnext fun reply hr => (hjustifies reply hr).note
  | invokes hruns hcalls => exact .invokes (hs.runsAs_perform hruns hstays) hcalls
  | asks hruns hcalls => exact .asks (hs.runsAs_perform hruns hstays) hcalls
  | leaves hrunning hsource hsuspended =>
      exact .leaves (hs.running_perform hrunning hstays) hsource (hsuspended.note hs supply _ _)
  | resumes hruns hsuspended =>
      exact .resumes (hs.runsAs_perform hruns hstays) (hsuspended.note hs supply _ _)
  | starts hrunning hid hfresh =>
      exact .starts (hs.running_perform hrunning hstays) hid
        (hfresh.note hs (hs.alive_of_running hrunning) supply _ fun _ => rfl)
  | answers hruns hcalls hreturns hjustifies =>
      exact .answers (hs.runsAs_perform hruns hstays) hcalls hreturns
        fun reply hr => (hjustifies reply hr).note
  | ended hruns => exact .ended (hs.runsAs_perform hruns hstays)

/-- Every step of a machine keeps its history an explanation of it. -/
theorem Explains.step (he : p.Explains v) {occurrence : Occurrence σ} {v' : View σ δ}
    (hstep : v.Step occurrence v') : (p.record v.running occurrence).Explains v' := by
  rcases he.shaped with ⟨o, hs⟩
  cases hstep with
  | acted hcaller _ hleads =>
      exact ⟨he.toBackground.act _ _, .act (he.story.turn hcaller).1 hleads⟩
  | invoked hphase =>
      cases he.story_of_phase hphase with
      | due _ hcaller _ => cases hcaller
      | invokes hruns hcalls => exact ⟨he.toBackground.goTo _, .asks hruns hcalls⟩
  | told hphase hrequest hanswers => exact he.told hphase hanswers
  | answered hphase hrequest hstays hanswers => exact he.answered hphase hrequest hstays hanswers
  | panicked hphase herror => exact he.panicked hphase herror _
  | paused hphase hrequest hpauses htransfer => exact he.paused hphase hrequest hpauses htransfer
  | switched hphase hresume hcaller hget => exact he.switched hphase hresume hcaller hget
  | resumed hphase hresume hcaller hget => exact he.resumed hphase hresume hcaller hget
  | completed hphase => exact he.completed hphase _
  | collected hphase hanswer => exact he.collected hphase hanswer
  | returned hphase => exact absurd hphase (he.not_never _ _)
  | began hphase hanswer => exact he.began hphase hanswer
  | bodiless hphase hanswer =>
      rcases he.takes hphase _ with ⟨body, -, htook⟩
      rw [hanswer] at htook
      cases htook
  | replied hphase => exact he.replied hphase
  | @interrupted mask =>
      exact ⟨he.toBackground.perform (asks_interrupts p hs .ample mask),
        he.story.note hs mask .ample⟩
  | stopped hphase => exact he

end Steps

end History

/-!
# Timelines
-/

namespace Machine

variable {μ σ ν δ : Type}

open History

structure FollowsCode (m : Machine μ σ ν) (w : World μ σ ν) (p : History σ) : Prop where
  /-- The processor runs the scheduler's thread, unless it is just changing hands. -/
  current : m.system.scheduler.RunsAs m.running ∨
    ∃ guard t resume caller, m.phase = .switch guard t resume caller ∧
      m.system.scheduler.running = .ok t.target ∧ t.source.id = m.running
  starts : m.phase = .start → m.running ∉ p.started ∧
    ∃ body, p.given m.running = some body ∧
      (m.system.start (w.supply m.stages)).value = some body
  /-- Code takes a turn when it has not begun, or where its last turn led to. -/
  order : ∀ c, m.phase.caller? = some c → p.Due m.running c m.phase.reply?
  exits : ∀ guard caller, m.phase ≠ .resume guard .never caller

theorem explains_create (config : Config) (cpu : Cpu) (upcoming : List Mask)
    (mutexes : List δ) (memory : μ) (main : σ) :
    (History.create main).Explains
      (create config cpu upcoming mutexes memory main : Machine μ σ ν δ).view := by
  have hunborn : ∀ h, (Scheduler.create config : Scheduler (Body σ)).life? h = none := fun _ => rfl
  refine ⟨⟨⟨_, Scheduler.shaped_create config⟩, ?_, ?_, ?_, ?_, ?_⟩, ?_⟩
  · intro i frame _ hget
    cases hget
  · rintro h ⟨l, hlife, -⟩
    cases (hunborn h).symm.trans hlife
  · intro h l code hlife
    cases (hunborn h).symm.trans hlife
  · intro i _ _
    exact ⟨rfl, List.not_mem_nil⟩
  · intro i d code hlast
    cases hlast
  · have hgiven : (History.create main).given 1 = some (.code main) := by simp [History.create]
    exact .due (.inr ⟨rfl, rfl, rfl⟩) rfl (.first rfl hgiven rfl rfl)

theorem explains_timeline (w : World μ σ ν δ) (arrivals : Nat → Option Mask) {m : Machine μ σ ν δ}
    {p : History σ} (he : p.Explains m.view) (n : Nat) :
    (m.history w arrivals p n).Explains (m.timeline w arrivals n).view := by
  induction n with
  | zero => exact he
  | succ n ih =>
      have hnext := ih.step (step_view w (m.timeline w arrivals n))
      rw [← view_arrive ((m.timeline w arrivals n).step w) (arrivals n)] at hnext
      exact hnext

theorem core_of_plain {phase : Phase σ} (hplain : phase.Plain) : phase.core = phase := by
  cases phase with
  | interrupt guard mask next => cases hplain
  | _ => rfl

/-- In the middle of a call no interrupt comes before what the machine goes on with. -/
theorem Honors.phase_of_view {m : Machine μ σ ν} (hm : m.Honors) {phase : Phase σ}
    (hview : m.view.phase = phase) (hmiddle : ¬ phase.Plain) : m.phase = phase := by
  have hcore : m.phase.core = phase := hview
  cases hm with
  | switching hphase _ _ _ _ =>
      rw [hphase] at hcore ⊢
      exact hcore
  | resuming hphase _ _ =>
      rw [hphase] at hcore ⊢
      exact hcore
  | resting _ hresting =>
      cases hphase : m.phase with
      | interrupt guard mask next =>
          rw [hphase] at hcore hresting
          have hnext : next.Plain := hresting
          rw [(core_of_plain hnext).symm.trans hcore] at hnext
          exact absurd hnext hmiddle
      | _ =>
          rw [hphase] at hcore
          exact hcore

theorem followsCode_of_explains (w : World μ σ ν) {m : Machine μ σ ν} {p : History σ}
    (hm : m.Honors) (he : p.Explains m.view) : m.FollowsCode w p where
  current := by
    have hstory := he.story
    generalize hcore : m.view.phase = phase at hstory
    cases hstory with
    | leaves hrunning hsource _ =>
        exact .inr ⟨_, _, _, _, hm.phase_of_view hcore id, hrunning, hsource⟩
    | starts hrunning hid _ => exact .inl (.inl ⟨_, hrunning, hid⟩)
    | due hruns _ _ => exact .inl hruns
    | invokes hruns _ => exact .inl hruns
    | asks hruns _ => exact .inl hruns
    | resumes hruns _ => exact .inl hruns
    | answers hruns _ _ _ => exact .inl hruns
    | ended hruns => exact .inl hruns
  starts := by
    intro hphase
    have hview : m.view.phase = .start := view_phase hphase
    rcases he.starts hview with ⟨h, -, hid, hfresh⟩
    rcases he.takes hview (w.supply m.stages) with ⟨body, hgiven, htook⟩
    refine ⟨?_, body, hgiven, ?_⟩
    · have hstarted := hfresh.started
      rw [hid] at hstarted
      exact hstarted
    · have hbody : Except.ok (Answer.body (m.system.start (w.supply m.stages)).value) =
        (.ok (.body (some body)) : Except Error (Answer (Body σ))) := htook
      injection hbody with hbody
      injection hbody
  order := by
    intro c hcaller
    have hcore : m.view.phase = m.phase := by
      apply core_of_plain
      cases hphase : m.phase <;> rw [hphase] at hcaller <;> trivial
    have hturn : m.view.phase.caller? = some c := by rw [hcore, hcaller]
    have hdue := (he.story.turn hturn).2
    rw [hcore] at hdue
    exact hdue
  exits := fun guard caller hphase => he.not_never guard caller (view_phase hphase)

/--
On a machine that switches threads, at every moment and whatever interrupts arrive, the
code that runs is that of the scheduler's thread, and each thread follows its code.
-/
theorem followsCode_timeline (w : World μ σ ν) (arrivals : Nat → Option Mask) (config : Config)
    (cpu : Cpu) (upcoming : List Mask) (mutexes : List Int32) (memory : μ) (main : σ) (n : Nat) :
    ((create config cpu upcoming mutexes memory main : Machine μ σ ν).timeline w arrivals
      n).FollowsCode w ((create config cpu upcoming mutexes memory main : Machine μ σ ν).history w
        arrivals (.create main) n) := by
  have hcreated := honors_create (ν := ν) config cpu upcoming mutexes memory main
  exact followsCode_of_explains w (hcreated.timeline w arrivals n)
    (explains_timeline w arrivals (explains_create config cpu upcoming mutexes memory main) n)

/-- Thread 2 has begun, and its body has returned 7. -/
example :
    let p := (create {} {} [] [] () 0).history World.joinsSeven (fun _ => none) (.create 0) 20
    p.started = [2] ∧ p.said = [(2, 7)] := by decide

end Machine

end Coop
