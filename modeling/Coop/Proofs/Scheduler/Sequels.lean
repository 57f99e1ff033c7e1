import Coop.Proofs.Scheduler.Lifetimes
import Coop.Proofs.Scheduler.Turns

/-!
# What one operation leaves behind

Facts about one operation, for use by whoever runs the threads: who lives after it and
had to live before it, who has the processor, who waits, and where a body or an exit
code comes from.
-/

namespace Coop

open Thread (Block Handle Id Life Spec State Table)

def Request.keepsBody {β : Type} : Request β → Bool
  | .takeBody | .exit _ => false
  | _ => true

namespace Scheduler

variable {β : Type} {s : Scheduler β} {o : Outline β} {h : Handle} {i : Id} {supply : Supply}
  {request : Request β} {t : Transfer} {b : Block β} {code : Int32} {line : Line}

/-- The thread with this identifier has the processor, or will be the first to have it. -/
def RunsAs (s : Scheduler β) (i : Id) : Prop :=
  (∃ h, s.running = .ok h ∧ h.id = i) ∨ (s.current = none ∧ s.nextId = 1 ∧ i = 1)

/-- Why a thread has this joiner after an operation. -/
inductive Names (s : Scheduler β) (supply : Supply) (request : Request β) (h j : Handle)
    (l : Life) : Prop where
  | before : s.life? h = some l → Names s supply request h j l
  | joined {t : Transfer} : request = .join h →
      (s.perform supply request).result = .ok (.transfer t) → t.source = j → l.exitCode = none →
        Names s supply request h j l
  | exited {code : Int32} {t : Transfer} : s.running = .ok h → request = .exit code →
      (s.perform supply request).result = .ok (.transfer t) →
        s.life? h = some ⟨false, some j, none⟩ → Names s supply request h j l

def Departed (s : Scheduler β) (i : Id) : Prop :=
  i < s.nextId ∧ ∀ h, s.Alive h → h.id ≠ i

theorem RunsAs.id_eq (hruns : s.RunsAs i) (hrunning : s.running = .ok h) : h.id = i := by
  rcases hruns with ⟨h', hrunning', hid⟩ | ⟨hcurrent, -, -⟩
  · rw [hrunning] at hrunning'
    injection hrunning' with hh
    rw [hh, hid]
  · have hsome := (running_eq_ok_iff.mp hrunning).1
    rw [hcurrent] at hsome
    cases hsome

theorem answer_takeBody (hrunning : s.running = .ok h)
    (hlookup : s.table.lookup h = some b) :
    (s.perform supply .takeBody).result = .ok (.body b.body) := by
  have hcurrent := (running_eq_ok_iff.mp hrunning).1
  have hget := (Table.lookup_eq_some_iff.mp hlookup).1
  simp [Scheduler.perform, Scheduler.takeBody, hcurrent, hget, Work.succeed]

namespace Shaped

/-!
# Who lives
-/

theorem id_lt_of_alive (hs : s.Shaped o) (halive : s.Alive h) : h.id < s.nextId := by
  rcases halive with ⟨l, hlife, -⟩
  rw [← hs.life?_eq] at hlife
  rw [← hs.1.nextId]
  exact hs.2.id_lt_of_life? hlife

theorem alive_earlier (hs : s.Shaped o) (halive : (s.perform supply request).scheduler.Alive h) :
    s.Alive h ∨ (s.perform supply request).result = .ok (.handle h) := by
  rcases halive with ⟨l, hlife, hcode⟩
  have hfate := hs.fate supply request h
  rw [hlife] at hfate
  generalize hbefore : s.life? h = before at hfate
  cases hfate with
  | kept => exact .inl ⟨l, hbefore, hcode⟩
  | born _ hresult _ => exact .inr hresult
  | joined _ _ _ _ _ => exact .inl ⟨_, hbefore, rfl⟩
  | exited _ _ _ => cases hcode
  | detached _ _ => exact .inl ⟨_, hbefore, rfl⟩

theorem nextId_le_perform (hs : s.Shaped o) (supply : Supply) (request : Request β) :
    s.nextId ≤ (s.perform supply request).scheduler.nextId :=
  hs.nextId_le_after [(request, supply)]

theorem id_of_handle (hs : s.Shaped o)
    (hresult : (s.perform supply request).result = .ok (.handle h)) :
    h.id = s.nextId ∧ h.id < (s.perform supply request).scheduler.nextId := by
  rcases hs.perform supply request with ⟨o', hstep, hs'⟩
  have hid : h.id = s.nextId := by
    rw [hresult] at hstep
    rw [(hstep.begins hs.2).1, hs.1.nextId]
  have hnext := hstep.nextId_eq
  rw [hresult, hs.1.nextId, hs'.1.nextId] at hnext
  refine ⟨hid, ?_⟩
  rw [hid, hnext]
  exact Nat.lt_succ_self _

theorem departed_perform (hs : s.Shaped o) (hdeparted : s.Departed i) :
    (s.perform supply request).scheduler.Departed i := by
  refine ⟨Nat.lt_of_lt_of_le hdeparted.1 (hs.nextId_le_perform supply request), ?_⟩
  intro h halive
  rcases hs.alive_earlier halive with hearlier | hresult
  · exact hdeparted.2 h hearlier
  · rw [(hs.id_of_handle hresult).1]
    exact Nat.ne_of_gt hdeparted.1

theorem request_of_handle (hs : s.Shaped o)
    (hresult : (s.perform supply request).result = .ok (.handle h)) :
    (request = .bootstrap ∧ s.current = none) ∨ ∃ spec body, request = .spawn spec body := by
  rcases hs.perform supply request with ⟨o', hstep, -⟩
  rw [hresult] at hstep
  cases hstep with
  | idle hidle => cases hidle
  | bootstrapped hcurrent _ => exact .inl ⟨rfl, hs.1.current.symm.trans hcurrent⟩
  | spawned _ _ _ => exact .inr ⟨_, _, rfl⟩

/-!
# Who has the processor
-/

theorem running_source (hs : s.Shaped o)
    (htransfer : (s.perform supply request).result = .ok (.transfer t)) :
    s.running = .ok t.source := by
  rcases hs.perform supply request with ⟨o', hstep, -⟩
  rw [htransfer] at hstep
  exact (hs.runs_iff t.source).mp hstep.runs_source

theorem departed_of_exit (hs : s.Shaped o)
    (htransfer : (s.perform supply (.exit code)).result = .ok (.transfer t)) :
    (s.perform supply (.exit code)).scheduler.Departed t.source.id := by
  have halive := hs.alive_of_running (hs.running_source htransfer)
  refine ⟨Nat.lt_of_lt_of_le (hs.id_lt_of_alive halive) (hs.nextId_le_perform supply _), ?_⟩
  intro h hlater hid
  have hearlier : s.Alive h := by
    rcases hs.alive_earlier hlater with hearlier | hresult
    · exact hearlier
    · rw [htransfer] at hresult
      cases hresult
  have hsame := hs.eq_of_id_eq hearlier halive hid
  rcases hs.perform supply (.exit code) with ⟨o', hstep, hs'⟩
  rw [htransfer] at hstep
  rcases hlater with ⟨l, hlife, hcode⟩
  rw [hsame, ← hs'.life?_eq] at hlife
  rcases hstep.life?_of_exit hs.2 hstep.runs_source with ⟨joiner, -, hafter⟩ | ⟨-, hafter⟩
  · rw [hafter] at hlife
    injection hlife with hlife
    rw [← hlife] at hcode
    cases hcode
  · rw [hafter] at hlife
    cases hlife

theorem running_of_runsAs (hs : s.Shaped o) (hruns : s.RunsAs i) (halive : s.Alive h)
    (hid : h.id = i) : s.running = .ok h := by
  rcases hruns with ⟨h', hrunning, hid'⟩ | ⟨hcurrent, -, -⟩
  · rw [hs.eq_of_id_eq halive (hs.alive_of_running hrunning) (hid.trans hid'.symm)]
    exact hrunning
  · have hsome := hs.isSome_current_of_alive halive
    rw [hcurrent] at hsome
    cases hsome

theorem runsAs_perform (hs : s.Shaped o) (hruns : s.RunsAs i)
    (hstays : ∀ t, (s.perform supply request).result ≠ .ok (.transfer t)) :
    (s.perform supply request).scheduler.RunsAs i := by
  rcases hruns with ⟨h, hrunning, hid⟩ | ⟨hcurrent, hnext, hi⟩
  · exact .inl ⟨h, hs.running_perform hrunning hstays, hid⟩
  · rcases hs.perform supply request with ⟨o', hstep, hs'⟩
    rw [← hs.1.current] at hcurrent
    rw [← hs.1.nextId] at hnext
    generalize (s.perform supply request).result = result at hstep
    cases hstep with
    | idle hidle =>
        refine .inr ⟨?_, ?_, hi⟩
        · rw [← hs'.1.current, hidle.alike.current, hcurrent]
        · rw [← hs'.1.nextId, hidle.alike.nextId, hnext]
    | bootstrapped hnone hroom =>
        have hstep : o.Step supply .bootstrap (.ok (.handle ⟨o.table.nextSlot, o.nextId⟩))
          (o.reserve supply).adopt := .bootstrapped hnone hroom
        rcases hstep.lookup_of_handle hs.2 with ⟨b, -, hlookup⟩
        have hruns : ((o.reserve supply).adopt).Runs ⟨o.table.nextSlot, o.nextId⟩ :=
          ⟨congrArg some (Outline.Alike.reserve o supply).nextSlot, b, hlookup⟩
        exact .inl ⟨_, (hs'.runs_iff _).mp hruns, hnext.trans hi.symm⟩
    | woken hlines =>
        refine .inr ⟨?_, ?_, hi⟩
        · rw [← hs'.1.current, Outline.wakeAll_current, hcurrent]
        · rw [← hs'.1.nextId, Outline.wakeAll_nextId, hnext]
    | spawned hsome _ _ | took hsome _ | switched hsome _ _ _ _ | delivered hsome _ _ _ _ _
    | detached hsome _ _ _ | dropped hsome _ _ _ =>
        rw [hcurrent] at hsome
        cases hsome

theorem not_departed (hs : s.Shaped o) (hruns : s.RunsAs i) : ¬ s.Departed i := by
  rintro ⟨hlt, hdeparted⟩
  rcases hruns with ⟨h, hrunning, hid⟩ | ⟨-, hnext, hi⟩
  · exact hdeparted h (hs.alive_of_running hrunning) hid
  · rw [hnext, hi] at hlt
    exact Nat.lt_irrefl _ hlt

/-!
# Who waits
-/

theorem waitsOn_of_wait (hs : s.Shaped o)
    (htransfer : (s.perform supply (.wait line)).result = .ok (.transfer t)) :
    (s.perform supply (.wait line)).scheduler.WaitsOn t.source line := by
  have halive := hs.alive_of_running (hs.running_source htransfer)
  rcases hs.perform supply (.wait line) with ⟨o', hstep, hs'⟩
  rw [htransfer] at hstep
  apply hs'.waitsOn_iff.mpr
  constructor
  · apply hs.alive_perform halive
    intro _ code hrequest
    cases hrequest
  · cases hstep with
    | idle hidle => cases hidle
    | switched hcurrent hget hleaves hready htarget =>
        cases hleaves with
        | parks => simp [Outline.dispatch, Outline.park]

theorem not_waitsOn_of_running (hs : s.Shaped o) (hrunning : s.running = .ok h) :
    ¬ s.WaitsOn h line := by
  rintro ⟨b, hlookup, hstate, -⟩
  exact hs.away_of_state (Table.lookup_eq_some_iff.mp hlookup).1 (by simp [hstate]) hrunning

/-!
# Where bodies and codes come from
-/

theorem body_of_spawn (hs : s.Shaped o) {spec : Spec} {body : β}
    (hresult : (s.perform supply (.spawn spec body)).result = .ok (.handle h)) :
    ∃ b, (s.perform supply (.spawn spec body)).scheduler.table.lookup h = some b ∧
      b.body = some body := by
  rcases hs.perform supply (.spawn spec body) with ⟨o', hstep, hs'⟩
  rw [hresult] at hstep
  rcases hstep.lookup_of_handle hs.2 with ⟨c, hbegins, hlookup⟩
  have hbody : c.body = some body := by
    cases hbegins with
    | fresh _ => rfl
  rw [hs'.1.lookup_eq] at hlookup
  rcases Option.map_eq_some_iff.mp hlookup with ⟨b, hb, rfl⟩
  exact ⟨b, hb, hbody⟩

/-- Only the thread itself loses its body, when it takes it or exits. -/
theorem body_perform (hs : s.Shaped o) (halive : s.Alive h)
    (hkeeps : s.running = .ok h → request.keepsBody = true) (hlookup : s.table.lookup h = some b) :
    ∃ b', (s.perform supply request).scheduler.table.lookup h = some b' ∧ b'.body = b.body := by
  have hlater : (s.perform supply request).scheduler.Alive h := by
    apply hs.alive_perform halive
    intro hrunning code hrequest
    rw [hrequest] at hkeeps
    cases hkeeps hrunning
  rcases hlater.exists_lookup with ⟨b', hlookup'⟩
  have htreats := Shaped.treats (e := ⟨s, request, supply, s.perform supply request⟩) hs rfl hlookup
    hlookup'
  rcases htreats.body with hsame | ⟨-, -, hrunning, htakes | ⟨code, -, hexits, -⟩⟩
  · exact ⟨b', hlookup', hsame⟩
  · have hrequest : request = .takeBody := htakes
    rw [hrequest] at hkeeps
    cases hkeeps hrunning
  · have hrequest : request = .exit code := hexits
    rw [hrequest] at hkeeps
    cases hkeeps hrunning

theorem code_earlier (hs : s.Shaped o) {l : Life}
    (hlife : (s.perform supply request).scheduler.life? h = some l)
    (hcode : l.exitCode = some code) :
    (∃ l₀, s.life? h = some l₀ ∧ l₀.exitCode = some code) ∨
      (s.running = .ok h ∧ request = .exit code) := by
  have hafter : (s.after [(request, supply)]).life? h = some l := hlife
  rcases hs.exit_of_code hafter hcode with hbefore | ⟨e, he, hexits⟩
  · exact .inl hbefore
  · rcases List.mem_singleton.mp he with rfl
    exact .inr ⟨hexits.1, hexits.2.1⟩

theorem names_perform (hs : s.Shaped o) {l : Life} {j : Handle}
    (hlife : (s.perform supply request).scheduler.life? h = some l) (hjoiner : l.joiner = some j) :
    s.Names supply request h j l := by
  have hfate := hs.fate supply request h
  rw [hlife] at hfate
  generalize hbefore : s.life? h = before at hfate
  cases hfate with
  | kept => exact .before hbefore
  | born _ _ _ => cases hjoiner
  | joined _ _ hrequest htransfer hsource =>
      injection hjoiner with hj
      exact .joined hrequest htransfer (hsource.trans hj) rfl
  | exited hruns hrequest htransfer =>
      cases hjoiner
      exact .exited ((hs.runs_iff h).mp hruns) hrequest htransfer hbefore
  | detached _ _ => cases hjoiner

/-- Only an operation that gives up the processor adds a joiner, or a code beside it. -/
theorem joined_earlier (hs : s.Shaped o) {l : Life} {j : Handle}
    (hlife : (s.perform supply request).scheduler.life? h = some l) (hjoiner : l.joiner = some j)
    (hstays : ∀ t, (s.perform supply request).result ≠ .ok (.transfer t)) :
    s.life? h = some l := by
  cases hs.names_perform hlife hjoiner with
  | before hbefore => exact hbefore
  | joined _ htransfer _ _ => exact absurd htransfer (hstays _)
  | exited _ _ htransfer _ => exact absurd htransfer (hstays _)

/-- What has a joiner and a code stays as it is until the joiner collects it. -/
theorem life?_of_ne_collect (hs : s.Shaped o) {j : Handle}
    (hlife : s.life? h = some ⟨false, some j, some code⟩) (supply : Supply)
    (hother : s.running = .ok j → request ≠ .collect h) :
    (s.perform supply request).scheduler.life? h = some ⟨false, some j, some code⟩ := by
  rcases hs.perform supply request with ⟨o', hstep, hs'⟩
  rw [← hs.life?_eq] at hlife
  rw [← hs'.life?_eq]
  rcases hstep.reserved hs.2 hlife with hkept | ⟨hnone, -⟩ | ⟨code', -, hruns, hrequest, -⟩
  · exact hkept
  · cases hnone
  · exact absurd hrequest (hother ((hs.runs_iff j).mp hruns))

theorem life_eq_of_joiner (hs : s.Shaped o) {l : Life} {j : Handle} (hlife : s.life? h = some l)
    (hjoiner : l.joiner = some j) : l = ⟨false, some j, l.exitCode⟩ := by
  rcases Option.map_eq_some_iff.mp hlife with ⟨b, hlookup, rfl⟩
  have hcoherent := hs.coherent (Table.lookup_eq_some_iff.mp hlookup).1
  have hattached : b.life.detached = false := by
    rw [← Bool.not_eq_true]
    intro hdetached
    cases hjoiner.symm.trans (hcoherent.unjoined hdetached)
  rw [← hattached, ← hjoiner]

theorem code_of_joins (hs : s.Shaped o) (hjoins : request.joins? = some h)
    (hresult : (s.perform supply request).result = .ok (.code code)) :
    ∃ l, s.life? h = some l ∧ l.exitCode = some code := by
  rcases hs.perform supply request with ⟨o', hstep, -⟩
  rw [hresult] at hstep
  rcases (hstep.life?_of_delivers hs.2 hjoins).1 with ⟨joiner, hlife⟩
  rw [hs.life?_eq] at hlife
  exact ⟨_, hlife, rfl⟩

end Shaped

end Scheduler

end Coop
