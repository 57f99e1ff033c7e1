import Coop.Proofs.Machine.ProgramOrder
import Coop.Proofs.Scheduler.Standby
import Coop.Proofs.System.Reaping

/-!
# Threads that exited are reclaimed

A scheduler alone can lose a thread: a joiner that exits without collecting leaves its
target behind for ever.  On a machine that cannot happen.  Whoever is named as a joiner
lives and is in the middle of that join, and collects before its code goes on.
-/

namespace Coop

open Thread (Handle Life Table)

/-!
# The middle of a join
-/

def Phase.collects? {σ : Type} : Phase σ → Option Handle
  | .switch _ _ (.collect h) _ | .resume _ (.collect h) _ => some h
  | _ => none

namespace View

variable {σ : Type} {v v' : View σ} {j h h' : Handle} {t : Transfer} {frame : Frame σ}
  {occurrence : Occurrence σ}

/-- The thread does not have the processor, and will collect when it has it again. -/
structure Parked (v : View σ) (j h : Handle) : Prop where
  away : j.id ≠ v.running
  frame : ∃ frame, v.frames.get? j.id = some frame ∧ frame.resume = .collect h

/-- The thread has the processor again, and is about to collect. -/
structure Resuming (v : View σ) (j h : Handle) : Prop where
  running : v.scheduler.running = .ok j
  turn : j.id = v.running
  phase : ∃ guard caller, v.phase = .resume guard (.collect h) caller

inductive Joins (v : View σ) (j h : Handle) : Prop where
  | parked : v.Parked j h → Joins v j h
  | running : j.id = v.running → v.phase.collects? = some h → Joins v j h

structure Switches (v : View σ) (t : Transfer) (frame : Frame σ) (v' : View σ) : Prop where
  scheduler : v'.scheduler = v.scheduler
  running : v'.running = t.target.id
  frames : ∀ i, i ≠ t.target.id → v'.frames.get? i = (v.suspended t.source frame).get? i
  phase : ∀ frame', (v.suspended t.source frame).get? t.target.id = some frame' →
    v'.phase = .resume frame'.guard frame'.resume frame'.caller

theorem switches_start (hget : (v.suspended t.source frame).get? t.target.id = none) :
    v.Switches t frame
      ⟨v.scheduler, v.suspended t.source frame, t.target.id, .start⟩ where
  scheduler := rfl
  running := rfl
  frames := fun _ _ => rfl
  phase := by
    intro frame' hget'
    cases hget.symm.trans hget'

theorem switches_resume {frame' : Frame σ}
    (hget : (v.suspended t.source frame).get? t.target.id = some frame') :
    v.Switches t frame ⟨v.scheduler, (v.suspended t.source frame).erase t.target.id, t.target.id,
      .resume frame'.guard frame'.resume frame'.caller⟩ where
  scheduler := rfl
  running := rfl
  frames := by
    intro i hne
    rw [Frames.get?_erase, if_neg hne]
  phase := by
    intro frame'' hget'
    rw [hget] at hget'
    injection hget' with hframe
    rw [hframe]

theorem Step.stays_or_switches (hstep : v.Step occurrence v') :
    (v'.frames = v.frames ∧ v'.running = v.running) ∨
      ∃ guard t resume caller frame, v.phase = .switch guard t resume caller ∧
        frame.resume = resume ∧ v.Switches t frame v' := by
  cases hstep with
  | switched hphase hresume _ hget =>
      exact .inr ⟨_, _, _, _, _, hphase, hresume, switches_start hget⟩
  | resumed hphase hresume _ hget =>
      exact .inr ⟨_, _, _, _, _, hphase, hresume, switches_resume hget⟩
  | _ => exact .inl ⟨rfl, rfl⟩

theorem Parked.congr (hparked : v.Parked j h) (hframes : v'.frames = v.frames)
    (hrunning : v'.running = v.running) : v'.Parked j h := by
  rcases hparked with ⟨haway, hframe⟩
  rw [← hrunning] at haway
  rw [← hframes] at hframe
  exact ⟨haway, hframe⟩

theorem Resuming.joins (hresuming : v.Resuming j h) : v.Joins j h := by
  rcases hresuming.phase with ⟨guard, caller, hphase⟩
  refine .running hresuming.turn ?_
  rw [hphase]
  rfl

/-- Whoever is in the middle of a join is parked, unless the machine is about to go on with it. -/
theorem Joins.parked_of_phase (hjoins : v.Joins j h) (hphase : v.phase.collects? = none) :
    v.Parked j h := by
  cases hjoins with
  | parked hparked => exact hparked
  | running _ hcollects => cases hphase.symm.trans hcollects

theorem Joins.unique (hjoins : v.Joins j h) (hjoins' : v.Joins j h') : h = h' := by
  cases hjoins with
  | parked hparked =>
      cases hjoins' with
      | parked hparked' =>
          rcases hparked.frame with ⟨frame, hget, hcollect⟩
          rcases hparked'.frame with ⟨frame', hget', hcollect'⟩
          rw [hget] at hget'
          injection hget' with hframe
          rw [← hframe, hcollect] at hcollect'
          injection hcollect'
      | running hturn _ => exact absurd hturn hparked.away
  | running hturn hcollects =>
      cases hjoins' with
      | parked hparked' => exact absurd hturn hparked'.away
      | running _ hcollects' => exact Option.some.inj (hcollects.symm.trans hcollects')

end View

namespace History

variable {σ : Type} {p : History σ} {v v' : View σ} {j h h' : Handle} {t : Transfer}
  {frame : Frame σ} {guard : Guard} {resume : Resume} {caller : Caller σ}
  {occurrence : Occurrence σ}

theorem Explains.frame_of_joins (he : p.Explains v) (hjoins : v.Joins j h)
    (hphase : v.phase = .switch guard t resume caller) (hresume : frame.resume = resume) :
    ∃ frame', (v.suspended t.source frame).get? j.id = some frame' ∧
      frame'.resume = .collect h := by
  have hsource := (he.leaves hphase).2.1
  cases hjoins with
  | parked hparked =>
      rcases hparked.frame with ⟨frame', hget, hcollect⟩
      -- the thread that leaves writes its own frame, and no other
      have hother : j.id ≠ t.source.id := by
        rw [hsource]
        exact hparked.away
      refine ⟨frame', ?_, hcollect⟩
      rw [get?_suspended, if_neg hother, hget]
  | running hturn hcollects =>
      rw [hphase] at hcollects
      have hcollect : resume = .collect h := by
        cases resume <;> cases hcollects
        rfl
      refine ⟨frame, ?_, hresume.trans hcollect⟩
      rw [get?_suspended, if_pos (hturn.trans hsource.symm)]

theorem Explains.parked_of_switches (he : p.Explains v) (halive : v.scheduler.Alive j)
    (hphase : v.phase = .switch guard t resume caller) (hswitches : v.Switches t frame v')
    {frame' : Frame σ} (hget : (v.suspended t.source frame).get? j.id = some frame')
    (hcollect : frame'.resume = .collect h) : v'.Parked j h ∨ v'.Resuming j h := by
  rcases he.shaped with ⟨o, hs⟩
  have hrunning := (he.leaves hphase).1
  by_cases hid : j.id = t.target.id
  · have hj := hs.eq_of_id_eq halive (hs.alive_of_running hrunning) hid
    rw [hid] at hget
    have hphase' := hswitches.phase frame' hget
    rw [hcollect] at hphase'
    refine .inr ⟨?_, hid.trans hswitches.running.symm, _, _, hphase'⟩
    rw [hswitches.scheduler, hrunning, hj]
  · refine .inl ⟨?_, frame', ?_, hcollect⟩
    · rw [hswitches.running]
      exact hid
    · rw [hswitches.frames j.id hid, hget]

/-- A parked thread stays parked until it is about to collect. -/
theorem Explains.parked_step (he : p.Explains v) (halive : v.scheduler.Alive j)
    (hparked : v.Parked j h) (hstep : v.Step occurrence v') : v'.Parked j h ∨ v'.Resuming j h := by
  rcases hstep.stays_or_switches with ⟨hframes, hrunning⟩ |
    ⟨guard, t, resume, caller, frame, hphase, hresume, hswitches⟩
  · exact .inl (hparked.congr hframes hrunning)
  · rcases he.frame_of_joins (.parked hparked) hphase hresume with ⟨frame', hget, hcollect⟩
    exact he.parked_of_switches halive hphase hswitches hget hcollect

/-!
# Joiners
-/

/-- The joiner of a thread lives, is in the middle of that join, and is woken by the exit. -/
structure Tracked (v : View σ) (h j : Handle) (l : Life) : Prop where
  alive : v.scheduler.Alive j
  joins : v.Joins j h
  upright : l.exitCode.isSome = true → v.scheduler.Upright j

def Tracks (v : View σ) : Prop :=
  ∀ h l j, v.scheduler.life? h = some l → l.joiner = some j → Tracked v h j l

section Steps

variable {o : Outline (Body σ)} {supply : Supply} {request : Request (Body σ)} {phase : Phase σ}
  {c : Call (Body σ)} {l : Life}

theorem Tracks.goTo (htracks : Tracks v) (hphase : v.phase.collects? = none) (phase : Phase σ) :
    Tracks (v.goTo phase) := by
  intro h l j hlife hjoiner
  rcases htracks h l j hlife hjoiner with ⟨halive, hjoins, hupright⟩
  exact ⟨halive, .parked ((hjoins.parked_of_phase hphase).congr rfl rfl), hupright⟩

theorem Tracks.perform (htracks : Tracks v) (hs : v.scheduler.Shaped o) (supply : Supply)
    (request : Request (Body σ))
    (hstays : ∀ t, (v.scheduler.perform supply request).result ≠ .ok (.transfer t)) :
    Tracks (v.perform supply request) := by
  intro h l j hlife hjoiner
  rcases htracks h l j (hs.joined_earlier hlife hjoiner hstays) hjoiner with
    ⟨halive, hjoins, hupright⟩
  refine ⟨hs.alive_perform halive fun _ _ _ => hstays, ?_, ?_⟩
  · cases hjoins with
    | parked hparked => exact .parked (hparked.congr rfl rfl)
    | running hturn hcollects => exact .running hturn hcollects
  · intro hcode
    exact hs.upright_perform (hupright hcode) fun _ => hstays

/-- A thread that gives up the processor in a join is tracked; so is one that it wakes. -/
theorem Explains.tracks_paused (he : p.Explains v) (htracks : Tracks v)
    (hphase : v.phase = .schedule guard c caller) (hrequest : c.request? = some request)
    (hpauses : c.Pauses resume) (htransfer : v.answer supply request = .ok (.transfer t)) :
    Tracks ((v.perform supply request).goTo (.switch guard t resume caller)) := by
  rcases he.shaped with ⟨o, hs⟩
  have hother : v.phase.collects? = none := by
    rw [hphase]
    rfl
  have hruns := (he.asks hphase).1
  -- whoever makes a request is in the middle of nothing, so no joiner is the one that leaves
  have haway : ∀ {h l j}, Tracked v h j l → v.scheduler.running ≠ .ok j := by
    intro h l j htracked hrunning
    exact (htracked.joins.parked_of_phase hother).away (hruns.id_eq hrunning)
  have halive : ∀ {h l j}, Tracked v h j l → (v.perform supply request).scheduler.Alive j :=
    fun htracked => hs.alive_perform htracked.alive fun hrunning =>
      absurd hrunning (haway htracked)
  have hparked : ∀ {h l j}, Tracked v h j l →
      ((v.perform supply request).goTo (.switch guard t resume caller)).Joins j h :=
    fun htracked => .parked ((htracked.joins.parked_of_phase hother).congr rfl rfl)
  have hresult : (v.scheduler.perform supply request).result = .ok (.transfer t) := htransfer
  intro h l j hlife hjoiner
  cases hs.names_perform hlife hjoiner with
  | before hbefore =>
      have htracked := htracks h l j hbefore hjoiner
      refine ⟨halive htracked, hparked htracked, ?_⟩
      intro hcode
      exact hs.upright_perform (htracked.upright hcode) fun hrunning =>
        absurd hrunning (haway htracked)
  | joined hjoin htransfer' hsource hnone =>
      subst hjoin
      cases hresult.symm.trans htransfer'
      have hcollect : resume = .collect h := by
        cases hpauses <;> cases hrequest
        rfl
      rw [← hsource]
      refine ⟨(hs.owes_of_join hresult).joiner, .running ?_ ?_, ?_⟩
      · exact hruns.id_eq (hs.running_source hresult)
      · rw [hcollect]
        rfl
      · intro hcode
        rw [hnone] at hcode
        cases hcode
  | exited hrunning hexit _ hbefore =>
      subst hexit
      have htracked := htracks h _ j hbefore rfl
      exact ⟨halive htracked, hparked htracked,
        fun _ => hs.upright_of_exit hrunning hbefore hresult⟩

theorem Explains.tracks_switched (he : p.Explains v) (htracks : Tracks v)
    (hphase : v.phase = .switch guard t resume caller) (hresume : frame.resume = resume)
    (hswitches : v.Switches t frame v') : Tracks v' := by
  intro h l j hlife hjoiner
  rw [hswitches.scheduler] at hlife
  rcases htracks h l j hlife hjoiner with ⟨halive, hjoins, hupright⟩
  refine ⟨?_, ?_, ?_⟩
  · rw [hswitches.scheduler]
    exact halive
  · rcases he.frame_of_joins hjoins hphase hresume with ⟨frame', hget, hcollect⟩
    rcases he.parked_of_switches halive hphase hswitches hget hcollect with hparked | hresuming
    · exact .parked hparked
    · exact hresuming.joins
  · rw [hswitches.scheduler]
    exact hupright

theorem Explains.tracks_collected (he : p.Explains v) (htracks : Tracks v)
    (hphase : v.phase = .resume guard (.collect h) caller) (supply : Supply) (phase : Phase σ) :
    Tracks (((v.perform supply .completeSwitch).perform supply (.collect h)).goTo phase) := by
  rcases he.shaped with ⟨o, hs⟩
  rcases hs.perform supply .completeSwitch with ⟨o', -, hs'⟩
  have hcompleted := htracks.perform hs supply .completeSwitch (Scheduler.perform_ne_transfer rfl)
  have hcollected := hcompleted.perform hs' supply (.collect h) (Scheduler.perform_ne_transfer rfl)
  intro h' l j hlife hjoiner
  have htracked := hcollected h' l j hlife hjoiner
  have hearlier := hs.joined_earlier (hs'.joined_earlier hlife hjoiner
    (Scheduler.perform_ne_transfer rfl)) hjoiner (Scheduler.perform_ne_transfer rfl)
  rcases htracks h' l j hearlier hjoiner with ⟨halive, hjoins, -⟩
  refine ⟨htracked.alive, ?_, htracked.upright⟩
  cases hjoins with
  | parked hparked => exact .parked (hparked.congr rfl rfl)
  | running hturn hcollects =>
      -- this is the thread that was just collected, so it has no joiner
      rw [hphase] at hcollects
      cases hcollects
      have hrunning := hs.running_of_runsAs (he.resumes hphase).1 halive hturn
      rw [hs.life_eq_of_joiner hearlier hjoiner] at hearlier
      rcases hs.collected_of_running hrunning hearlier supply with ⟨-, -, -, hgone⟩
      refine absurd (Scheduler.resolves_iff_life?.mpr ?_) hgone
      have hstill : ((v.scheduler.perform supply .completeSwitch).scheduler.collect supply
        h).scheduler.life? h = some l := hlife
      rw [hstill]
      rfl

theorem Explains.tracks_step (he : p.Explains v) (htracks : Tracks v)
    (hstep : v.Step occurrence v') : Tracks v' := by
  rcases he.shaped with ⟨o, hs⟩
  have hother : ∀ {phase : Phase σ}, v.phase = phase → phase.collects? = none →
      v.phase.collects? = none := by
    rintro phase rfl hnone
    exact hnone
  have hcompletes : ∀ supply, Tracks (v.perform supply .completeSwitch) :=
    fun supply => htracks.perform hs supply _ (Scheduler.perform_ne_transfer rfl)
  have hstarts : ∀ supply,
      Tracks ((v.perform supply .completeSwitch).perform supply .takeBody) := by
    intro supply
    rcases hs.perform supply .completeSwitch with ⟨o', -, hs'⟩
    exact (hcompletes supply).perform hs' supply _ (Scheduler.perform_ne_transfer rfl)
  cases hstep with
  | acted hcaller _ _ =>
      refine htracks.goTo ?_ _
      generalize v.phase = phase at hcaller ⊢
      cases phase <;> first | rfl | cases hcaller
  | invoked hphase => exact htracks.goTo (hother hphase rfl) _
  | told hphase _ _ => exact htracks.goTo (hother hphase rfl) _
  | answered hphase _ hstays _ =>
      exact (htracks.perform hs _ _ hstays).goTo (hother hphase rfl) _
  | panicked hphase herror =>
      refine (htracks.perform hs _ _ ?_).goTo (hother hphase rfl) _
      intro t htransfer
      cases herror.symm.trans htransfer
  | paused hphase hrequest hpauses htransfer =>
      exact he.tracks_paused htracks hphase hrequest hpauses htransfer
  | switched hphase hresume _ hget =>
      exact he.tracks_switched htracks hphase hresume (View.switches_start hget)
  | resumed hphase hresume _ hget =>
      exact he.tracks_switched htracks hphase hresume (View.switches_resume hget)
  | completed hphase => exact (hcompletes _).goTo (hother hphase rfl) _
  | collected hphase _ => exact he.tracks_collected htracks hphase _ _
  | returned hphase => exact absurd hphase (he.not_never _ _)
  | began hphase _ => exact (hstarts _).goTo (hother hphase rfl) _
  | bodiless hphase _ => exact (hstarts _).goTo (hother hphase rfl) _
  | replied hphase => exact htracks.goTo (hother hphase rfl) _
  | interrupted => exact htracks.perform hs _ _ (Scheduler.perform_ne_transfer rfl)
  | stopped _ => exact htracks

/-!
# Threads that are kept for their joiners
-/

theorem request?_ne_collect (hrequest : c.request? = some request) : request ≠ .collect h := by
  rintro rfl
  cases c <;> cases hrequest

theorem Explains.life?_step (he : p.Explains v) (hparked : v.Parked j h) {code : Int32}
    (hlife : v.scheduler.life? h = some ⟨false, some j, some code⟩)
    (hstep : v.Step occurrence v') :
    v'.scheduler.life? h = some ⟨false, some j, some code⟩ := by
  rcases he.shaped with ⟨o, hs⟩
  -- only a collection takes the thread away, and only its joiner can collect
  have hrequested : ∀ supply {request}, request ≠ .collect h →
      (v.perform supply request).scheduler.life? h = some ⟨false, some j, some code⟩ :=
    fun supply _ hother => hs.life?_of_ne_collect hlife supply fun _ => hother
  have hcompleted : ∀ supply {request}, v.scheduler.RunsAs v.running →
      ((v.perform supply .completeSwitch).perform supply request).scheduler.life? h =
        some ⟨false, some j, some code⟩ := by
    intro supply request hruns
    rcases hs.perform supply .completeSwitch with ⟨o', -, hs'⟩
    refine hs'.life?_of_ne_collect (hrequested supply (by simp)) supply ?_
    intro hrunning
    have hruns' : (v.scheduler.perform supply .completeSwitch).scheduler.RunsAs v.running :=
      hs.runsAs_perform hruns (Scheduler.perform_ne_transfer rfl)
    exact absurd (hruns'.id_eq hrunning) hparked.away
  cases hstep with
  | answered _ hrequest _ _ => exact hrequested _ (request?_ne_collect hrequest)
  | panicked _ _ => exact hrequested _ (by simp)
  | paused _ hrequest _ _ => exact hrequested _ (request?_ne_collect hrequest)
  | completed _ => exact hrequested _ (by simp)
  | collected hphase _ => exact hcompleted _ (he.resumes hphase).1
  | began hphase _ =>
      rcases he.starts hphase with ⟨h', hrunning, hid, -⟩
      exact hcompleted _ (.inl ⟨h', hrunning, hid⟩)
  | bodiless hphase _ =>
      rcases he.starts hphase with ⟨h', hrunning, hid, -⟩
      exact hcompleted _ (.inl ⟨h', hrunning, hid⟩)
  | interrupted => exact hrequested _ (by simp)
  | _ => exact hlife

end Steps

end History

/-!
# Machines
-/

namespace Machine

variable {μ σ ν : Type}

def SuspendedInJoin (m : Machine μ σ ν) (p : History σ) (j h : Handle) : Prop :=
  ∃ frame, m.frames.get? j.id = some frame ∧ frame.resume = .collect h ∧
    p.Calls j.id (.join h) frame.caller

/-- A thread that exited is kept for its joiner, which does not have the processor. -/
structure Keeps (m : Machine μ σ ν) (j h : Handle) (code : Int32) : Prop where
  away : m.running ≠ j.id
  kept : ∃ b, m.system.scheduler.table.lookup h = some b ∧ b.joiner = some j ∧
    b.exitCode = some code

/-- With this step the joiner takes the code, and the thread that exited is gone. -/
structure Reclaims (w : World μ σ ν) (m : Machine μ σ ν) (j h : Handle) (code : Int32) : Prop where
  running : m.system.scheduler.running = .ok j
  collects : ∃ guard caller, m.phase = .resume guard (.collect h) caller ∧
    (m.step w).phase = .answer guard (.ok (.code code)) caller
  gone : ¬ (m.step w).system.scheduler.Resolves h

/-- The joiner does not have the processor again before it reclaims the thread that exited. -/
def ReclaimsFirst (w : World μ σ ν) (m : Machine μ σ ν) (j h : Handle) (code : Int32) : Prop :=
  ∀ arrivals n, (∀ k < n, ¬ (m.timeline w arrivals k).Reclaims w j h code) →
    (m.timeline w arrivals n).Keeps j h code ∨ (m.timeline w arrivals n).Reclaims w j h code

/-- How a thread that exited can be reclaimed, which depends on its joiner. -/
inductive Reclaimable (w : World μ σ ν) (m : Machine μ σ ν) (p : History σ) (h : Handle)
    (code : Int32) : Option Handle → Prop where
  | unjoined : m.system.Reapable h code → Reclaimable w m p h code none
  | joined {j : Handle} : m.system.scheduler.state j = .ok .ready → m.SuspendedInJoin p j h →
      m.ReclaimsFirst w j h code → Reclaimable w m p h code (some j)

structure Settled (w : World μ σ ν) (m : Machine μ σ ν) (p : History σ) : Prop where
  /-- This holds whenever the processor is not just changing hands. -/
  exited : m.phase.Resting → ∀ h b, m.system.scheduler.table.lookup h = some b →
    b.state = .exited → ∃ code, b.exitCode = some code ∧ m.Reclaimable w p h code b.joiner
  unique : ∀ j h h' b b', m.system.scheduler.table.lookup h = some b →
    m.system.scheduler.table.lookup h' = some b' → b.joiner = some j → b'.joiner = some j → h = h'
  resolves : ∀ h b j, m.system.scheduler.table.lookup h = some b → b.joiner = some j →
    m.system.scheduler.Resolves j

structure Sane (m : Machine μ σ ν) (p : History σ) : Prop where
  honors : m.Honors
  explains : p.Explains m.view
  tracks : History.Tracks m.view

variable {w : World μ σ ν} {m : Machine μ σ ν} {p : History σ} {j h : Handle} {code : Int32}

theorem sane_create (config : Config) (cpu : Cpu) (upcoming : List Mask) (mutexes : List Int32)
    (memory : μ) (main : σ) :
    (create config cpu upcoming mutexes memory main : Machine μ σ ν).Sane (.create main) where
  honors := honors_create config cpu upcoming mutexes memory main
  explains := explains_create config cpu upcoming mutexes memory main
  tracks := by
    intro h l j hlife
    have hunborn : (Scheduler.create config : Scheduler (Body σ)).life? h = none := rfl
    cases hunborn.symm.trans hlife

theorem Sane.timeline (hm : m.Sane p) (w : World μ σ ν) (arrivals : Nat → Option Mask) (n : Nat) :
    (m.timeline w arrivals n).Sane (m.history w arrivals p n) where
  honors := hm.honors.timeline w arrivals n
  explains := explains_timeline w arrivals hm.explains n
  tracks := by
    induction n with
    | zero => exact hm.tracks
    | succ n ih =>
        have hnext := (explains_timeline w arrivals hm.explains n).tracks_step ih
          (step_view w (m.timeline w arrivals n))
        rw [← view_arrive ((m.timeline w arrivals n).step w) (arrivals n)] at hnext
        exact hnext

theorem Sane.reclaims (hm : m.Sane p) (hresuming : m.view.Resuming j h)
    (hlife : m.system.scheduler.life? h = some ⟨false, some j, some code⟩) :
    m.Reclaims w j h code := by
  rcases hm.explains.shaped with ⟨o, hs⟩
  rcases hresuming.phase with ⟨guard, caller, hview⟩
  have hphase := hm.honors.phase_of_view hview id
  rcases hs.collected_of_running hresuming.running hlife (w.supply m.stages) with
    ⟨code', hcode, hcollects, hgone⟩
  injection hcode with hcode
  have hvalue : (m.system.finish (w.supply m.stages) (.collect h)).value =
      .answer (.ok (.code code)) := by
    rw [System.finish_collect, hcode]
    exact congrArg (fun r => Ending.answer (r.map .code)) hcollects
  refine ⟨hresuming.running, ⟨guard, caller, hphase, ?_⟩, ?_⟩
  · unfold Machine.step
    simp only [hphase, Machine.resume, hvalue]
    rfl
  · unfold Machine.step
    simp only [hphase, Machine.resume, hvalue]
    exact hgone

theorem Sane.parked_timeline (hm : m.Sane p) (hparked : m.view.Parked j h)
    (hlife : m.system.scheduler.life? h = some ⟨false, some j, some code⟩)
    (arrivals : Nat → Option Mask) {n : Nat}
    (hwaits : ∀ k < n, ¬ (m.timeline w arrivals k).Reclaims w j h code) :
    (m.timeline w arrivals n).system.scheduler.life? h = some ⟨false, some j, some code⟩ ∧
      ((m.timeline w arrivals n).view.Parked j h ∨
        (m.timeline w arrivals n).view.Resuming j h) := by
  -- a parked joiner goes on by collecting, and then the reclaiming is done
  induction n with
  | zero => exact ⟨hlife, .inl hparked⟩
  | succ n ih =>
      have hn := hm.timeline w arrivals n
      rcases ih fun k hk => hwaits k (Nat.lt_succ_of_lt hk) with ⟨hlife', hparked' | hresuming⟩
      · have hstep := step_view w (m.timeline w arrivals n)
        rw [← view_arrive ((m.timeline w arrivals n).step w) (arrivals n)] at hstep
        have hkept := hn.explains.life?_step hparked' hlife' hstep
        refine ⟨hkept, ?_⟩
        exact hn.explains.parked_step (hn.tracks h _ j hlife' rfl).alive hparked' hstep
      · exact absurd (hn.reclaims hresuming hlife') (hwaits n (Nat.lt_succ_self n))

theorem Sane.reclaimsFirst (hm : m.Sane p) (hparked : m.view.Parked j h)
    (hlife : m.system.scheduler.life? h = some ⟨false, some j, some code⟩) :
    m.ReclaimsFirst w j h code := by
  intro arrivals n hwaits
  rcases hm.parked_timeline hparked hlife arrivals hwaits with ⟨hlife', hparked' | hresuming⟩
  · rcases Option.map_eq_some_iff.mp hlife' with ⟨b, hlookup, hb⟩
    injection hb with _ hjoiner hcode
    exact .inl ⟨hparked'.away.symm, b, hlookup, hjoiner, hcode⟩
  · exact .inr ((hm.timeline w arrivals n).reclaims hresuming hlife')

theorem collects?_of_resting (hresting : m.phase.Resting) : m.view.phase.collects? = none := by
  have hnone : ∀ {phase : Phase σ}, phase.Plain → phase.core.collects? = none := by
    intro phase hplain
    rw [core_of_plain hplain]
    cases phase <;> first | rfl | cases hplain
  show m.phase.core.collects? = none
  cases hphase : m.phase with
  | interrupt guard mask next =>
      rw [hphase] at hresting
      show next.core.collects? = none
      exact hnone hresting
  | _ =>
      rw [hphase] at hresting
      exact hnone hresting

theorem Sane.reclaimable_of_joined (hm : m.Sane p) (hresting : m.phase.Resting)
    (hlife : m.system.scheduler.life? h = some ⟨false, some j, some code⟩) :
    m.Reclaimable w p h code (some j) := by
  rcases hm.explains.shaped with ⟨o, hs⟩
  rcases hm.tracks h _ j hlife rfl with ⟨-, hjoins, hupright⟩
  have hparked := hjoins.parked_of_phase (collects?_of_resting hresting)
  refine .joined ?_ ?_ (hm.reclaimsFirst hparked hlife)
  · apply hs.ready_of_upright (hupright rfl)
    intro hrunning
    rcases (followsCode_of_explains w hm.honors hm.explains).current with
      hruns | ⟨guard, t, resume, caller, hphase, -, -⟩
    · exact hparked.away (hruns.id_eq hrunning)
    · rw [hphase] at hresting
      cases hresting
  · rcases hparked.frame with ⟨frame, hget, hcollect⟩
    rcases hm.explains.frames j.id frame hparked.away hget with ⟨c, hsuspended⟩
    have hpauses := hsuspended.pauses
    rw [hcollect] at hpauses
    have hc : c = .join h := by
      cases hpauses
      rfl
    refine ⟨frame, hget, hcollect, ?_⟩
    rw [← hc]
    exact hsuspended.calls

theorem Sane.settled (hm : m.Sane p) (w : World μ σ ν) : m.Settled w p where
  exited := by
    intro hresting h b hlookup hexited
    rcases hm.explains.shaped with ⟨o, hs⟩
    cases hjoiner : b.joiner with
    | none =>
        rcases System.reapable_of_exited hs hlookup hexited hjoiner with ⟨code, hcode, hreapable⟩
        exact ⟨code, hcode, .unjoined hreapable⟩
    | some j =>
        rcases hs.finished?_of_exited hlookup hexited with ⟨code, hcode, -⟩
        have hlife : m.system.scheduler.life? h = some b.life := Table.life?_of_lookup hlookup
        rw [hs.life_eq_of_joiner hlife hjoiner] at hlife
        have hcode' : b.life.exitCode = some code := hcode
        rw [hcode'] at hlife
        exact ⟨code, hcode, hm.reclaimable_of_joined hresting hlife⟩
  unique := by
    intro j h h' b b' hlookup hlookup' hjoiner hjoiner'
    have htracked := hm.tracks h b.life j (Table.life?_of_lookup hlookup) hjoiner
    have htracked' := hm.tracks h' b'.life j (Table.life?_of_lookup hlookup') hjoiner'
    exact htracked.joins.unique htracked'.joins
  resolves := by
    intro h b j hlookup hjoiner
    exact (hm.tracks h b.life j (Table.life?_of_lookup hlookup) hjoiner).alive.exists_lookup

/--
On a machine that switches threads, at every moment and whatever interrupts arrive, no
thread that exited is lost: if nobody joins it any thread can reclaim it, and otherwise
its joiner is ready, and reclaims it before its code goes on.
-/
theorem settled_timeline (w : World μ σ ν) (arrivals : Nat → Option Mask) (config : Config)
    (cpu : Cpu) (upcoming : List Mask) (mutexes : List Int32) (memory : μ) (main : σ) (n : Nat) :
    ((create config cpu upcoming mutexes memory main : Machine μ σ ν).timeline w arrivals n).Settled
      w ((create config cpu upcoming mutexes memory main : Machine μ σ ν).history w arrivals
        (.create main) n) :=
  ((sane_create config cpu upcoming mutexes memory main).timeline w arrivals n).settled w

end Machine

def World.leavesSecond : World Unit Nat Unit where
  turn := fun _ state _ =>
    { memory := ()
      state := state + 1
      ask :=
        match state with
        | 0 => .call .init
        | 1 => .call (.spawn {} (.code 10))
        | 2 => .call (.spawn {} (.code 20))
        | 3 => .call (.join ⟨1, 2⟩)
        | 10 => .finish 7
        | _ => .pause }

/-- The code of thread 3 runs, and thread 2 is kept for thread 1. -/
example :
    let m := (Machine.create {} {} [] [] () 0).timeline World.leavesSecond (fun _ => none) 23
    m.phase.caller? = some (.code 21) ∧ m.system.scheduler.exitCode ⟨1, 2⟩ = .ok 7 ∧
      m.system.scheduler.state ⟨0, 1⟩ = .ok .ready := by decide

end Coop
