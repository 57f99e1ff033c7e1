import Coop.Proofs.Scheduler.Balance
import Mathlib.Data.List.Chain

/-!
# Stacks of threads that are exiting

A detached thread that exits still runs on its stack when its block is gone, until the
switch to the next thread is complete.  So its stack is kept aside meanwhile: it is with
no other thread and in no cache, and the pool still counts it.  It goes back to the pool
when the switch is completed.  Should another detached thread exit first, then the stack
that was aside goes back, and the new one takes its place.
-/

namespace Coop

open Thread (Block Handle Id Spec Table)

namespace Outline

variable {β : Type} {o o' : Outline β} {supply : Supply} {request : Request β}
  {result : Except Error (Answer β)} {cur slot : Nat} {b : Block β} {stack : Stack}

theorem graveyard_release (o : Outline β) (supply : Supply) (stack : Option Stack) :
    (o.release supply stack).graveyard = o.graveyard := by
  cases stack <;> rfl

theorem bury_of_stack (o : Outline β) (supply : Supply) (slot : Nat)
    (hstack : b.stack = some stack) :
    (o.bury supply slot b).graveyard = some stack ∧
      (o.bury supply slot b).pool = (o.release supply o.graveyard).pool := by
  unfold bury
  rw [hstack]
  unfold retire countReclaimed
  constructor
  · simp only [graveyard_release]
  · unfold release countExited
    cases o.graveyard <;> rfl

inductive Vanishes (o : Outline β) (stack : Stack) :
    Request β → Except Error (Answer β) → Prop where
  | exits {cur : Nat} {b : Block β} {code : Int32} {t : Transfer} :
      o.current = some cur → o.table.get? cur = some b → b.isDetached = true →
        b.stack = some stack → Vanishes o stack (.exit code) (.ok (.transfer t))

/-- What is aside changes only when a switch is completed or such a thread exits. -/
theorem Step.graveyard_eq (hstep : o.Step supply request result o') :
    o'.graveyard = o.graveyard ∨ request = .completeSwitch ∨
      ∃ stack, o.Vanishes stack request result := by
  cases hstep with
  | idle hidle =>
      cases hidle with
      | settled => exact Or.inr (Or.inl rfl)
      | _ => exact Or.inl rfl
  | @switched cur slot rest b c _ o₁ hcurrent hget hleaves _ _ =>
      rcases hleaves.keeps with hkeeps | ⟨⟨code, rfl⟩, hdetached, rfl⟩
      · exact Or.inl hkeeps.graveyard
      · cases hstack : b.stack with
        | none =>
            refine Or.inl ?_
            unfold dispatch bury
            rw [hstack]
            rfl
        | some stack =>
            exact Or.inr (Or.inr ⟨stack, .exits hcurrent hget hdetached hstack⟩)
  | delivered _ _ _ _ _ _ => exact Or.inl (graveyard_release _ supply _)
  | dropped _ _ _ _ => exact Or.inl (graveyard_release _ supply _)
  | woken _ => exact Or.inl (Keeps.wakeAll o _).graveyard
  | _ => exact Or.inl rfl

theorem Step.graveyard_of_vanishes (hstep : o.Step supply request result o')
    (hvanishes : o.Vanishes stack request result) :
    o'.graveyard = some stack ∧ o'.pool = (o.release supply o.graveyard).pool := by
  cases hvanishes with
  | @exits cur b code t hcurrent hget hdetached hstack =>
      cases hstep with
      | idle hidle => cases hidle
      | @switched cur' slot rest b' c _ o₁ hcurrent' hget' hleaves _ _ =>
          rw [hcurrent] at hcurrent'
          injection hcurrent' with hcur
          rw [← hcur, hget] at hget'
          injection hget' with hb
          subst hcur hb
          cases hleaves with
          | exits hattached =>
              rw [hdetached] at hattached
              cases hattached
          | vanishes _ => exact o.bury_of_stack supply cur hstack

end Outline

namespace Scheduler

variable {β : Type} {s : Scheduler β} {o : Outline β} {h : Handle} {stack : Stack}

namespace Entry

def Buries (e : Entry β) (h : Handle) (stack : Stack) : Prop :=
  (∃ code, e.Exits h code) ∧ e.earlier.isDetached h = .ok true ∧
    e.earlier.stack? h = .ok (some stack)

/-- The operation neither completes a switch nor lets a detached thread leave a stack. -/
def Passes (e : Entry β) : Prop :=
  e.request ≠ .completeSwitch ∧ ∀ h stack, ¬ e.Buries h stack

end Entry

/-- Each operation that hands the processor over is followed by the completion of the switch. -/
def Disciplined (history : List (Entry β)) : Prop :=
  history.IsChain fun e e' => (∃ t, e.answer? = some (.transfer t)) → e'.request = .completeSwitch

/-- The stack is kept aside: no cache and no live thread has it, but the pool counts it. -/
structure Aside (s : Scheduler β) (stack : Stack) : Prop where
  graveyard : s.graveyard = some stack
  apart : ∀ other ∈ s.pool.stock ++ s.table.owned, other.serial ≠ stack.serial
  inUse : s.pool.inUse = s.table.owned.length + 1
  reserved : s.pool.reserved =
    (s.table.owned.map Stack.size).sum + stack.size + (s.pool.stock.map Stack.size).sum

structure RetiresStacks (s : Scheduler β) (requests : List (Request β × Supply)) : Prop where
  clear : Disciplined (s.run requests) → ∀ e ∈ s.run requests, e.request ≠ .completeSwitch →
    e.earlier.graveyard = none
  /-- The stack of a detached thread is kept when it exits, and only an older one goes back. -/
  buries : ∀ e ∈ s.run requests, ∀ h stack, e.Buries h stack →
    e.later.Aside stack ∧
      (∀ old, e.earlier.graveyard = some old → old.serial ≠ stack.serial) ∧
        e.earlier.pool.Settles e.supply.cache e.earlier.graveyard e.later.pool
  stays : ∀ e ∈ s.run requests, ∀ stack, e.earlier.graveyard = some stack → e.Passes →
    e.later.Aside stack
  completes : ∀ e ∈ s.run requests, e.request = .completeSwitch →
    e.later.graveyard = none ∧
      e.earlier.pool.Settles e.supply.cache e.earlier.graveyard e.later.pool
  returned : ∀ before e between e' after h stack,
    s.run requests = before ++ e :: (between ++ e' :: after) → e.Buries h stack →
      (∀ e'' ∈ between, e''.Passes) → e'.request = .completeSwitch →
        e'.earlier.Aside stack ∧ e'.earlier.pool.Takes e'.supply.cache stack e'.later.pool
  /-- No stack is lost: what is out stays out, or it is given back. -/
  kept : ∀ e ∈ s.run requests, ∀ stack ∈ e.earlier.out,
    stack ∈ e.later.out ∨ e.earlier.pool.Takes e.supply.cache stack e.later.pool

/-!
# Reachable schedulers
-/

theorem Reachable.aside (h : s.Reachable) (hgraveyard : s.graveyard = some stack) :
    s.Aside stack := by
  have hout : s.out = s.table.owned ++ [stack] := by
    rw [out, hgraveyard]
    rfl
  have hdistinct := h.tracks.distinct
  have hinUse := h.tracks.inUse
  have hreserved := h.reserved_eq
  rw [hout, ← List.append_assoc, List.map_append, List.nodup_append] at hdistinct
  rw [hout, List.length_append] at hinUse
  rw [hout, List.map_append, List.sum_append] at hreserved
  refine ⟨hgraveyard, ?_, hinUse, hreserved⟩
  intro other hother
  exact hdistinct.2.2 _ (List.mem_map_of_mem hother) _ (List.mem_singleton_self _)

theorem Reachable.takes (h : s.Reachable) (hstack : stack ∈ s.out) (g : Growth) :
    s.pool.Takes g stack (s.pool.release g stack) := by
  rcases h.accounted with ⟨o, hs, haccounted⟩
  rw [← hs.out_perm.mem_iff] at hstack
  rcases haccounted.le_of_mem hstack with ⟨hinUse, hreserved⟩
  rw [hs.1.pool] at hinUse hreserved
  exact Pool.takes_release hinUse hreserved g

theorem Reachable.settles (h : s.Reachable) (hs : s.Shaped o) (supply : Supply) :
    s.pool.Settles supply.cache s.graveyard (o.release supply o.graveyard).pool := by
  rw [hs.1.graveyard]
  cases hgraveyard : s.graveyard with
  | none => exact hs.1.pool
  | some stack =>
      have hout : stack ∈ s.out := by
        rw [out, hgraveyard]
        exact List.mem_append_right _ (List.mem_singleton_self stack)
      have htakes := h.takes hout supply.cache
      rw [← hs.1.pool] at htakes ⊢
      exact htakes

theorem Reachable.settles_completeSwitch (h : s.Reachable) (supply : Supply) :
    s.pool.Settles supply.cache s.graveyard
      (s.perform supply .completeSwitch).scheduler.pool := by
  rcases h.shaped with ⟨o, hs⟩
  have hsettles := h.settles hs supply
  have hpool : (s.perform supply .completeSwitch).scheduler.pool =
      (o.release supply o.graveyard).pool := by
    rw [hs.1.graveyard]
    simp only [Scheduler.perform, completeSwitch]
    cases s.graveyard with
    | none => exact hs.1.pool.symm
    | some stack => exact congrArg (Pool.release · supply.cache stack) hs.1.pool.symm
  rw [hpool]
  exact hsettles

/-!
# What one operation does
-/

section Entries

variable {e : Entry β}

theorem Shaped.buries_iff (hs : e.earlier.Shaped o) :
    (∃ h, e.Buries h stack) ↔ o.Vanishes stack e.request e.outcome.result := by
  constructor
  · rintro ⟨h, ⟨code, hrunning, hrequest, t, hanswer⟩, hdetached, hstack⟩
    rcases isDetached_eq_ok_iff.mp hdetached with ⟨b, hlookup, hb⟩
    rcases stack?_eq_ok_iff.mp hstack with ⟨c, hlookup', hc⟩
    rw [hlookup] at hlookup'
    injection hlookup' with hsame
    subst hsame
    have hget := (Table.lookup_eq_some_iff.mp (hs.1.lookup_of_lookup hlookup)).1
    rw [hrequest, Entry.answer?_eq_some_iff.mp hanswer]
    exact .exits ((hs.runs_iff h).mpr hrunning).1 hget hb hc
  · intro hvanishes
    generalize hrequest : e.request = request at hvanishes
    generalize hresult : e.outcome.result = result at hvanishes
    cases hvanishes with
    | @exits cur b code t hcurrent hget hdetached hstack =>
        have hlookup := Table.lookup_of_get? hget
        have hrunning := (hs.runs_iff ⟨cur, b.id⟩).mp ⟨hcurrent, b, hlookup⟩
        rw [hs.1.lookup_eq] at hlookup
        rcases Option.map_eq_some_iff.mp hlookup with ⟨b₀, hlookup₀, rfl⟩
        exact ⟨_, ⟨code, hrunning, hrequest, t, Entry.answer?_eq_some_iff.mpr hresult⟩,
          isDetached_eq_ok_iff.mpr ⟨b₀, hlookup₀, hdetached⟩,
          stack?_eq_ok_iff.mpr ⟨b₀, hlookup₀, hstack⟩⟩

theorem Shaped.graveyard_eq (hs : e.earlier.Shaped o)
    (houtcome : e.outcome = e.earlier.perform e.supply e.request) :
    e.later.graveyard = e.earlier.graveyard ∨ e.request = .completeSwitch ∨
      ∃ h stack, e.Buries h stack := by
  rcases hs.perform e.supply e.request with ⟨o', hstep, hs'⟩
  rw [← houtcome] at hstep hs'
  rcases hstep.graveyard_eq with hsame | hcompletes | ⟨stack, hvanishes⟩
  · rw [hs.1.graveyard, hs'.1.graveyard] at hsame
    exact Or.inl hsame
  · exact Or.inr (Or.inl hcompletes)
  · rcases hs.buries_iff.mpr hvanishes with ⟨h, hburies⟩
    exact Or.inr (Or.inr ⟨h, stack, hburies⟩)

theorem Shaped.graveyard_of_passes (hs : e.earlier.Shaped o)
    (houtcome : e.outcome = e.earlier.perform e.supply e.request) (hpasses : e.Passes) :
    e.later.graveyard = e.earlier.graveyard := by
  rcases hs.graveyard_eq houtcome with hsame | hcompletes | ⟨h, stack, hburies⟩
  · exact hsame
  · exact absurd hcompletes hpasses.1
  · exact absurd hburies (hpasses.2 h stack)

theorem Reachable.graveyard_of_buries (hreachable : e.earlier.Reachable)
    (houtcome : e.outcome = e.earlier.perform e.supply e.request) (hburies : e.Buries h stack) :
    e.later.graveyard = some stack ∧
      (∀ old, e.earlier.graveyard = some old → old.serial ≠ stack.serial) ∧
        e.earlier.pool.Settles e.supply.cache e.earlier.graveyard e.later.pool := by
  rcases hreachable.shaped with ⟨o, hs⟩
  rcases hs.perform e.supply e.request with ⟨o', hstep, hs'⟩
  rw [← houtcome] at hstep hs'
  rcases hstep.graveyard_of_vanishes (hs.buries_iff.mp ⟨h, hburies⟩) with ⟨hgraveyard, hpool⟩
  rw [hs'.1.graveyard] at hgraveyard
  rw [hs'.1.pool] at hpool
  refine ⟨hgraveyard, ?_, ?_⟩
  · intro old hold
    rcases stack?_eq_ok_iff.mp hburies.2.2 with ⟨b, hlookup, hstack⟩
    have hentry := Table.mem_toList.mpr (Table.lookup_eq_some_iff.mp hlookup).1
    have howned : stack ∈ e.earlier.table.owned :=
      List.mem_flatMap.mpr ⟨_, hentry, Option.mem_toList.mpr hstack⟩
    exact ((hreachable.aside hold).apart stack (List.mem_append_right _ howned)).symm
  · have hsettles := hreachable.settles hs e.supply
    rw [← hpool] at hsettles
    exact hsettles

theorem Reachable.completes (hreachable : e.earlier.Reachable)
    (houtcome : e.outcome = e.earlier.perform e.supply e.request)
    (hrequest : e.request = .completeSwitch) :
    e.later.graveyard = none ∧
      e.earlier.pool.Settles e.supply.cache e.earlier.graveyard e.later.pool := by
  show e.outcome.scheduler.graveyard = none ∧ e.earlier.pool.Settles _ _ e.outcome.scheduler.pool
  rw [houtcome, hrequest]
  exact ⟨(scheduler_completeSwitch _ _).2, hreachable.settles_completeSwitch e.supply⟩

theorem Reachable.mem_out (hreachable : e.earlier.Reachable)
    (houtcome : e.outcome = e.earlier.perform e.supply e.request) (hstack : stack ∈ e.earlier.out) :
    stack ∈ e.later.out ∨ e.earlier.pool.Takes e.supply.cache stack e.later.pool := by
  rcases hreachable.shaped with ⟨o, hs⟩
  rcases hs.perform e.supply e.request with ⟨o', hstep, hs'⟩
  rw [← houtcome] at hstep hs'
  have hearlier := hs.out_perm
  have hlater : o'.out.Perm e.later.out := hs'.out_perm
  rw [← hearlier.mem_iff] at hstack
  cases hstep.handover hs.2 with
  | held hheld => exact Or.inl (hlater.mem_iff.mp (hheld.out.symm.mem_iff.mp hstack))
  | refused _ hheld => exact Or.inl (hlater.mem_iff.mp (hheld.out.symm.mem_iff.mp hstack))
  | lent _ _ hout _ =>
      exact Or.inl (hlater.mem_iff.mp (hout.symm.mem_iff.mp (List.mem_cons_of_mem _ hstack)))
  | @returned other hout hpool _ =>
      rcases List.mem_cons.mp (hout.mem_iff.mp hstack) with rfl | hrest
      · have htakes := hreachable.takes (hearlier.mem_iff.mp hstack) e.supply.cache
        rw [hs'.1.pool, hs.1.pool] at hpool
        rw [← hpool] at htakes
        exact Or.inr htakes
      · exact Or.inl (hlater.mem_iff.mp hrest)

end Entries

/-!
# Runs
-/

theorem Shaped.graveyard_after (hs : s.Shaped o) {requests : List (Request β × Supply)}
    (hpasses : ∀ e ∈ s.run requests, e.Passes) : (s.after requests).graveyard = s.graveyard := by
  induction requests generalizing s o with
  | nil => rfl
  | cons entry rest ih =>
      rcases entry with ⟨request, supply⟩
      rcases hs.perform supply request with ⟨o', -, hs'⟩
      have hfirst := graveyard_of_passes (e := ⟨s, request, supply, s.perform supply request⟩) hs
        rfl (hpasses _ List.mem_cons_self)
      have hrest := ih hs' fun e he => hpasses e (List.mem_cons_of_mem _ he)
      exact hrest.trans hfirst

theorem Shaped.clear (hs : s.Shaped o) {requests : List (Request β × Supply)}
    (hstart : s.graveyard = none ∨ ∀ e ∈ (s.run requests).head?, e.request = .completeSwitch)
    (hdisciplined : Disciplined (s.run requests)) :
    ∀ e ∈ s.run requests, e.request ≠ .completeSwitch → e.earlier.graveyard = none := by
  induction requests generalizing s o with
  | nil => exact fun e he => absurd he List.not_mem_nil
  | cons entry rest ih =>
      rcases entry with ⟨request, supply⟩
      rcases hs.perform supply request with ⟨o', -, hs'⟩
      rcases List.isChain_cons.mp hdisciplined with ⟨hnext, hrest⟩
      have hfirst : request ≠ .completeSwitch → s.graveyard = none := by
        intro hrequest
        exact hstart.resolve_right fun h => hrequest (h _ rfl)
      have hlater : (s.perform supply request).scheduler.graveyard = none ∨
          ∀ e ∈ ((s.perform supply request).scheduler.run rest).head?,
            e.request = .completeSwitch := by
        rcases graveyard_eq (e := ⟨s, request, supply, s.perform supply request⟩) hs rfl with
          hsame | hcompletes | ⟨h, stack, hburies⟩
        · by_cases hrequest : request = .completeSwitch
          · rw [hrequest]
            exact Or.inl (s.scheduler_completeSwitch supply).2
          · exact Or.inl (hsame.trans (hfirst hrequest))
        · change request = .completeSwitch at hcompletes
          rw [hcompletes]
          exact Or.inl (s.scheduler_completeSwitch supply).2
        · rcases hburies.1 with ⟨code, -, -, htransfer⟩
          exact Or.inr fun e he => hnext e he htransfer
      intro e he
      rcases List.mem_cons.mp he with rfl | he
      · exact hfirst
      · exact ih hs' hlater hrest e he

theorem graveyard_of_run {config : Config} {requests : List (Request β × Supply)}
    {before between after : List (Entry β)} {e e' : Entry β}
    (hrun : (create config).run requests = before ++ e :: (between ++ e' :: after))
    (hburies : e.Buries h stack) (hpasses : ∀ e'' ∈ between, e''.Passes) :
    e'.earlier.graveyard = some stack := by
  have he : e ∈ (create config).run requests := by
    rw [hrun]
    exact List.mem_append_right _ List.mem_cons_self
  rcases reachable_of_mem_run he with ⟨hreachable, hlater, houtcome⟩
  rcases hlater.shaped with ⟨o, hs⟩
  rcases run_eq_append_cons hrun with ⟨-, later, -, -, hafter, -, -⟩
  rcases run_eq_append_cons hafter.symm with ⟨between', -, -, hbetween, -, hearlier, -⟩
  rw [hbetween] at hpasses
  rw [hearlier, hs.graveyard_after hpasses]
  exact (hreachable.graveyard_of_buries houtcome hburies).1

/--
In every run from the start, the stack of a detached thread that exits is kept aside
until the next switch is completed, or the next such thread exits, and nobody has it
meanwhile.
-/
theorem retiresStacks_create (config : Config) (requests : List (Request β × Supply)) :
    (create config).RetiresStacks requests := by
  have hcreated : (create config : Scheduler β).Shaped _ := shaped_create config
  constructor
  · exact hcreated.clear (Or.inl rfl)
  · intro e he h stack hburies
    rcases reachable_of_mem_run he with ⟨hreachable, hlater, houtcome⟩
    rcases hreachable.graveyard_of_buries houtcome hburies with ⟨hgraveyard, hold, hsettles⟩
    exact ⟨hlater.aside hgraveyard, hold, hsettles⟩
  · intro e he stack hgraveyard hpasses
    rcases reachable_of_mem_run he with ⟨hreachable, hlater, houtcome⟩
    rcases hreachable.shaped with ⟨o, hs⟩
    exact hlater.aside ((hs.graveyard_of_passes houtcome hpasses).trans hgraveyard)
  · intro e he hrequest
    rcases reachable_of_mem_run he with ⟨hreachable, -, houtcome⟩
    exact hreachable.completes houtcome hrequest
  · intro before e between e' after h stack hrun hburies hpasses hrequest
    have he' : e' ∈ (create config).run requests := by
      rw [hrun]
      exact List.mem_append_right _
        (List.mem_cons_of_mem _ (List.mem_append_right _ List.mem_cons_self))
    rcases reachable_of_mem_run he' with ⟨hreachable, -, houtcome⟩
    have hgraveyard := graveyard_of_run hrun hburies hpasses
    have hsettles := (hreachable.completes houtcome hrequest).2
    rw [hgraveyard] at hsettles
    exact ⟨hreachable.aside hgraveyard, hsettles⟩
  · intro e he stack hstack
    rcases reachable_of_mem_run he with ⟨hreachable, -, houtcome⟩
    exact hreachable.mem_out houtcome hstack

end Scheduler
end Coop
