import Coop.Proofs.Machine.ProgramOrder
import Coop.Proofs.Scheduler.Standby

/-!
# The idle thread

A thread whose body is the idle loop yields and does nothing else, so it never leaves.
While a machine has one, no exit is refused.
-/

namespace Coop

open Thread (Handle Id Spec)

namespace History

variable {σ : Type} {p : History σ} {v v' : View σ} {h : Handle} {request : Request (Body σ)}
  {o : Outline (Body σ)} {supply : Supply} {c : Call (Body σ)} {caller : Caller σ} {i : Id}

/-- The thread runs the idle loop, and is ready or running. -/
structure Idles (p : History σ) (v : View σ) (h : Handle) : Prop where
  given : p.given h.id = some .idle
  last : ∀ d, p.last h.id = some d → d = .idle
  upright : v.scheduler.Upright h

theorem Idles.caller_eq (hidles : p.Idles v h) {c : Caller σ} {reply? : Option Reply}
    (hdue : p.Due h.id c reply?) : c = .idle := by
  cases hdue with
  | first _ hgiven hc _ =>
      rw [hidles.given] at hgiven
      injection hgiven with hbody
      rw [hc, ← hbody]
      rfl
  | next hlast hnext _ =>
      rw [hidles.last _ hlast] at hnext
      injection hnext with hc
      exact hc.symm

theorem Idles.call_eq (hidles : p.Idles v h) (hcalls : p.Calls h.id c caller) : c = .yield := by
  rcases hcalls with ⟨d, hlast, hcall, -⟩
  rw [hidles.last d hlast] at hcall
  injection hcall with hc
  exact hc.symm

theorem Idles.act (hidles : p.Idles v h) {d : Deed σ} (hd : i = h.id → d = .idle)
    (phase : Phase σ) : (p.act i d).Idles (v.goTo phase) h where
  given := hidles.given
  last := by
    intro d' hlast
    by_cases hrunner : h.id = i
    · rw [hrunner, last_act_self] at hlast
      injection hlast with heq
      rw [← heq]
      exact hd hrunner.symm
    · rw [last_act_of_ne hrunner] at hlast
      exact hidles.last d' hlast
  upright := hidles.upright

theorem Idles.congr (hidles : p.Idles v h) (hscheduler : v'.scheduler = v.scheduler) :
    p.Idles v' h := by
  refine ⟨hidles.given, hidles.last, ?_⟩
  rw [hscheduler]
  exact hidles.upright

theorem Idles.perform (hs : v.scheduler.Shaped o) (hidles : p.Idles v h) (supply : Supply)
    (request : Request (Body σ))
    (hyields : v.scheduler.running = .ok h → request.suspends = true → request = .yield) :
    (p.note request (v.answer supply request)).Idles (v.perform supply request) h := by
  refine ⟨?_, hidles.last, ?_⟩
  · rw [given_note_of_ne, hidles.given]
    intro h' hresult hid
    have hlt := hs.id_lt_of_alive (hs.alive_of_upright hidles.upright)
    rw [← hid, (hs.id_of_handle hresult).1] at hlt
    exact Nat.lt_irrefl _ hlt
  · have hstays : ∀ request', v.scheduler.running = .ok h → request = request' →
        request'.suspends = true → request' ≠ .yield → False := by
      rintro request' hrunning rfl hsuspends hother
      exact hother (hyields hrunning hsuspends)
    refine Scheduler.Shaped.upright_later
      (e := ⟨v.scheduler, request, supply, v.scheduler.perform supply request⟩) hs rfl ?_
      hidles.upright
    intro hquits
    cases hquits with
    | waits hgives => exact hstays _ hgives.1 hgives.2.1 rfl (by simp)
    | joins hgives => exact hstays _ hgives.1 hgives.2.1 rfl (by simp)
    | exits hexits => exact hstays _ hexits.1 hexits.2.1 rfl (by simp)

theorem Idles.perform_unseen (hs : v.scheduler.Shaped o) (hidles : p.Idles v h) (supply : Supply)
    (request : Request (Body σ)) (hkeeps : request.suspends = false)
    (hcovers : ∀ line, request.covers line = false)
    (hspawn : ∀ spec body, request ≠ .spawn spec body) :
    p.Idles (v.perform supply request) h := by
  have hnoted := hidles.perform hs supply request fun _ hsuspends => by
    rw [hkeeps] at hsuspends
    cases hsuspends
  rw [note_eq hcovers hspawn] at hnoted
  exact hnoted

theorem Idles.start (hidles : p.Idles v h) (i : Id) : (p.start i).Idles v h :=
  ⟨hidles.given, hidles.last, hidles.upright⟩

theorem Idles.step (he : p.Explains v) (hidles : p.Idles v h) {occurrence : Occurrence σ}
    (hstep : v.Step occurrence v') : (p.record v.running occurrence).Idles v' h := by
  rcases he.shaped with ⟨o, hs⟩
  have hyields : ∀ {guard} {c : Call (Body σ)} {caller request},
      v.phase = .schedule guard c caller → c.request? = some request →
        v.scheduler.running = .ok h → request.suspends = true → request = .yield := by
    intro guard c caller request hphase hrequest hrunning _
    rcases he.asks hphase with ⟨hruns, hcalls⟩
    rw [← hruns.id_eq hrunning] at hcalls
    rw [hidles.call_eq hcalls] at hrequest
    cases hrequest
    rfl
  have hcompletes : ∀ supply, ∃ o', (v.perform supply .completeSwitch).scheduler.Shaped o' ∧
      p.Idles (v.perform supply .completeSwitch) h := by
    intro supply
    rcases hs.perform supply .completeSwitch with ⟨o', -, hs'⟩
    exact ⟨o', hs', hidles.perform_unseen hs supply _ rfl (fun _ => rfl) (by simp)⟩
  cases hstep with
  | acted hcaller hidle hleads =>
      -- its own turns are turns of the idle loop
      refine hidles.act ?_ _
      intro hrunner
      have hdue := (he.story.turn hcaller).2
      rw [hrunner] at hdue
      exact hidle (hidles.caller_eq hdue)
  | invoked _ => exact hidles.congr rfl
  | told _ _ _ => exact hidles.congr rfl
  | answered hphase hrequest _ _ =>
      exact (hidles.perform hs _ _ (hyields hphase hrequest)).congr rfl
  | panicked hphase _ => exact (hidles.perform hs _ _ (hyields hphase rfl)).congr rfl
  | paused hphase hrequest _ _ =>
      exact (hidles.perform hs _ _ (hyields hphase hrequest)).congr rfl
  | switched _ _ _ _ => exact hidles.congr rfl
  | resumed _ _ _ _ => exact hidles.congr rfl
  | completed _ =>
      rcases hcompletes _ with ⟨o', hs', hcompleted⟩
      exact hcompleted.congr rfl
  | collected _ _ =>
      rcases hcompletes _ with ⟨o', hs', hcompleted⟩
      exact (hcompleted.perform_unseen hs' _ (.collect _) rfl (fun _ => rfl) (by simp)).congr rfl
  | returned _ => exact hidles.congr rfl
  | @began supply body _ _ =>
      rcases hcompletes supply with ⟨o', hs', hcompleted⟩
      have htook := hcompleted.perform_unseen hs' supply .takeBody rfl (fun _ => rfl) (by simp)
      exact (htook.start v.running).congr rfl
  | @bodiless supply _ _ =>
      rcases hcompletes supply with ⟨o', hs', hcompleted⟩
      have htook := hcompleted.perform_unseen hs' supply .takeBody rfl (fun _ => rfl) (by simp)
      exact (htook.start v.running).congr rfl
  | replied _ => exact hidles.congr rfl
  | @interrupted mask =>
      exact hidles.perform hs .ample (.interrupts mask) fun _ hsuspends => by cases hsuspends
  | stopped _ => exact hidles

theorem Explains.idles_of_spawn (he : p.Explains v) {spec : Spec}
    (hstep : v.Step (.asks (.spawn spec .idle) (.ok (.handle h))) v') :
    (p.note (.spawn spec .idle) (.ok (.handle h))).Idles v' h := by
  rcases he.shaped with ⟨o, hs⟩
  generalize hoccurrence :
    Occurrence.asks (.spawn spec .idle) (.ok (.handle h)) = occurrence at hstep
  cases hstep with
  | @answered guard c caller supply request r hphase hrequest hstays hanswers =>
      injection hoccurrence with hspawn hresult
      subst hspawn
      have hanswer : (v.scheduler.perform supply (.spawn spec .idle)).result = .ok (.handle h) :=
        hresult.symm
      have hid := hs.id_of_handle hanswer
      have hother : h.id ≠ v.running := by
        rcases (he.asks hphase).1 with ⟨h', hrunning, hid'⟩ | ⟨hcurrent, -, -⟩
        · rw [hid.1, ← hid']
          exact Nat.ne_of_gt (hs.id_lt_of_alive (hs.alive_of_running hrunning))
        · rw [Scheduler.result_of_deserted hcurrent rfl] at hanswer
          cases hanswer
      refine ⟨Function.update_self _ _ _, ?_, hs.upright_of_handle hanswer⟩
      intro d hlast
      have hnone := (he.unborn h.id (Nat.le_of_eq hid.1.symm) hother).1
      cases hnone.symm.trans hlast
  | @paused guard c caller supply request t resume hphase hrequest hpauses htransfer =>
      injection hoccurrence with hspawn hresult
      cases htransfer.symm.trans hresult.symm
  | _ => cases hoccurrence

end History

/-!
# Exits are not refused
-/

namespace Machine

variable {μ σ ν : Type}

def SpawnsIdle (w : World μ σ ν) (m : Machine μ σ ν) (h : Handle) : Prop :=
  ∃ spec, m.occurrence w = .asks (.spawn spec .idle) (.ok (.handle h))

variable {w : World μ σ ν} {m : Machine μ σ ν} {p : History σ} {h : Handle}

theorem idles_timeline (arrivals : Nat → Option Mask) (he : p.Explains m.view) {n : Nat}
    (hspawns : (m.timeline w arrivals n).SpawnsIdle w h) (more : Nat) :
    (m.history w arrivals p (n + 1 + more)).Idles
      (m.timeline w arrivals (n + 1 + more)).view h := by
  induction more with
  | zero =>
      rcases hspawns with ⟨spec, hoccurrence⟩
      have hstep := step_view w (m.timeline w arrivals n)
      rw [hoccurrence] at hstep
      have hidles := (explains_timeline w arrivals he n).idles_of_spawn hstep
      rw [← view_arrive ((m.timeline w arrivals n).step w) (arrivals n)] at hidles
      show ((m.history w arrivals p n).record _ ((m.timeline w arrivals n).occurrence w)).Idles _ h
      rw [hoccurrence]
      exact hidles
  | succ more ih =>
      have hnext := ih.step (explains_timeline w arrivals he (n + 1 + more))
        (step_view w (m.timeline w arrivals (n + 1 + more)))
      rw [← view_arrive ((m.timeline w arrivals (n + 1 + more)).step w)
        (arrivals (n + 1 + more))] at hnext
      exact hnext

theorem exits_of_idles (he : p.Explains m.view) (hidles : p.Idles m.view h) {guard : Guard}
    {code : Int32} {caller : Caller σ} (hphase : m.phase = .schedule guard (.exit code) caller) :
    ∃ t, (m.step w).phase = .switch guard t .never caller := by
  have hview : m.view.phase = .schedule guard (.exit code) caller := view_phase hphase
  rcases he.shaped with ⟨o, hs⟩
  rcases he.asks hview with ⟨hruns, hcalls⟩
  have haway : m.view.scheduler.running ≠ .ok h := by
    intro hrunning
    rw [← hruns.id_eq hrunning] at hcalls
    cases hidles.call_eq hcalls
  rcases hs.exits_of_standby (hs.standby hidles.upright) haway (w.supply m.stages) code with
    ⟨t, hresult⟩
  have hexit : (m.system.scheduler.exit (w.supply m.stages) code).result = .ok t := hresult
  refine ⟨t, ?_⟩
  unfold Machine.step
  simp only [hphase, Machine.schedule, System.begin, System.exit, System.stage, hexit]
  rfl

end Machine

/--
A thread that never leaves keeps the processor busy: in every run of a scheduler it is
ready or running, and nobody else is refused for want of a thread to run; and on every
machine that has an idle thread, every exit hands the processor on.
-/
theorem standby_of_idle {β μ σ ν : Type} (config : Config) :
    (∀ (requests more : List (Request β × Supply)) (supply : Supply) (spec : Spec) (body : β)
      (h : Handle), let s := (Scheduler.create config).after requests
      (s.perform supply (.spawn spec body)).result = .ok (.handle h) →
        (∀ e ∈ (s.perform supply (.spawn spec body)).scheduler.run more, ¬ e.Quits h) →
          ((s.perform supply (.spawn spec body)).scheduler.after more).Standby h) ∧
    (∀ (w : World μ σ ν) (arrivals : Nat → Option Mask) (cpu : Cpu) (upcoming : List Mask)
      (mutexes : List Int32) (memory : μ) (main : σ) (n more : Nat) (h : Handle),
      let m := (Machine.create config cpu upcoming mutexes memory main).timeline w arrivals
      (m n).SpawnsIdle w h →
        (m (n + 1 + more)).system.scheduler.Standby h ∧
          ∀ guard code caller, (m (n + 1 + more)).phase = .schedule guard (.exit code) caller →
            ∃ t, ((m (n + 1 + more)).step w).phase = .switch guard t .never caller) := by
  constructor
  · intro requests more supply spec body h s hresult hstays
    rcases (Scheduler.shaped_create config).after requests with ⟨o, hs⟩
    rcases hs.perform supply (.spawn spec body) with ⟨o', -, hs'⟩
    rcases hs'.after more with ⟨o'', hs''⟩
    exact hs''.standby (hs'.upright_after (hs.upright_of_handle hresult) hstays)
  · intro w arrivals cpu upcoming mutexes memory main n more h m hspawns
    have he := Machine.explains_create (ν := ν) config cpu upcoming mutexes memory main
    have hidles := Machine.idles_timeline arrivals he hspawns more
    have hlater := Machine.explains_timeline w arrivals he (n + 1 + more)
    rcases hlater.shaped with ⟨o, hs⟩
    exact ⟨hs.standby hidles.upright, fun guard code caller => Machine.exits_of_idles hlater hidles⟩

def World.exitsToIdle : World Unit Nat Unit where
  turn := fun _ state _ =>
    { memory := ()
      state := state + 1
      ask :=
        match state with
        | 0 => .call .init
        | 1 => .call (.spawn .idle .idle)
        | _ => .call (.exit 0) }

theorem standby_of_idle_second :
    ((Scheduler.create {} : Scheduler Unit).after
        [(.bootstrap, .ample), (.spawn .idle (), .ample), (.wait 3, .ample)]).Standby ⟨1, 2⟩ ∧
      ∃ t, (((Machine.create {} {} [] [] () 0).timeline World.exitsToIdle (fun _ => none) 10).step
        World.exitsToIdle).phase = .switch ⟨true⟩ t .never (.code 3) := by
  rcases standby_of_idle (β := Unit) (μ := Unit) (σ := Nat) (ν := Unit) {} with ⟨hruns, hmachines⟩
  constructor
  · refine hruns [(.bootstrap, .ample)] [(.wait 3, .ample)] .ample .idle () ⟨1, 2⟩ rfl ?_
    intro e he hquits
    rcases List.mem_singleton.mp he with rfl
    cases hquits with
    | waits hgives => cases hgives.1
    | joins hgives => cases hgives.1
    | exits hexits => cases hexits.1
  · have hexits := hmachines World.exitsToIdle (fun _ => none) {} [] [] () 0 6 3 ⟨1, 2⟩ ⟨.idle, rfl⟩
    exact hexits.2 ⟨true⟩ 0 (.code 3) rfl

end Coop
