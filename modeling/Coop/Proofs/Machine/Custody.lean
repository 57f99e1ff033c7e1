import Coop.Proofs.Machine.ProgramOrder

/-!
# Who holds which mutex

A guard belongs to the thread whose code took it, and stays with that thread while it is
suspended.  A step of a machine uses mutexes in the name of the running thread, and in
one way at most: it takes one, changes the data of one, or drops guards.  Calls, switches
and interrupts leave every guard where it is and all data as it was.
-/

namespace Coop

open Thread (Handle Id)

inductive Use (δ : Type) where
  | takes (k : Nat)
  | changes (k : Nat) (f : δ → δ)
  | frees (ks : List Nat)

/-- The mutexes of a machine, and those whose guards each thread holds. -/
structure Custody (δ : Type) where
  mutexes : Array (Mutex δ)
  locks : Id → List Nat

namespace Custody

variable {δ : Type} {c : Custody δ} {i : Id} {k k' : Nat}

/-!
# Uses
-/

/-- A mutex is told whether there is a guard, and so is the thread that has or had it. -/
def mark (c : Custody δ) (i : Id) (k : Nat) (locked : Bool) (ks : List Nat) : Custody δ :=
  ⟨c.mutexes.modify k fun mutex => { mutex with locked }, Function.update c.locks i ks⟩

def take (c : Custody δ) (i : Id) (k : Nat) : Custody δ :=
  c.mark i k true (k :: c.locks i)

def free (c : Custody δ) (i : Id) (k : Nat) : Custody δ :=
  c.mark i k false ((c.locks i).erase k)

def drop (c : Custody δ) (i : Id) (ks : List Nat) : Custody δ :=
  ks.foldl (fun c k => c.free i k) c

def change (c : Custody δ) (k : Nat) (f : δ → δ) : Custody δ :=
  { c with mutexes := c.mutexes.modify k fun mutex => mutex.update f }

def use (c : Custody δ) (i : Id) : Option (Use δ) → Custody δ
  | none => c
  | some (.takes k) => c.take i k
  | some (.changes k f) => c.change k f
  | some (.frees ks) => c.drop i ks

def datum (c : Custody δ) (k : Nat) : Option δ :=
  c.mutexes[k]?.map Mutex.data

theorem datum_mark (c : Custody δ) (i : Id) (k : Nat) (locked : Bool) (ks : List Nat) (k' : Nat) :
    (c.mark i k locked ks).datum k' = c.datum k' := by
  unfold datum mark
  rw [Array.getElem?_modify]
  by_cases hk : k = k'
  · rw [if_pos hk, Option.map_map]
    rfl
  · rw [if_neg hk]

theorem drop_eq (c : Custody δ) (i : Id) (ks : List Nat) :
    c.drop i ks =
      ⟨ks.foldl (fun mutexes k => mutexes.modify k Mutex.unlock) c.mutexes,
        Function.update c.locks i ((c.locks i).diff ks)⟩ := by
  induction ks generalizing c with
  | nil =>
      rw [List.diff_nil, Function.update_eq_self]
      rfl
  | cons k ks ih =>
      refine (ih (c.free i k)).trans ?_
      simp only [free, mark, Function.update_self, Function.update_idem, List.diff_cons]
      rfl

theorem datum_drop (c : Custody δ) (i : Id) (ks : List Nat) (k' : Nat) :
    (c.drop i ks).datum k' = c.datum k' := by
  induction ks generalizing c with
  | nil => rfl
  | cons k ks ih => exact (ih (c.free i k)).trans (datum_mark c i k _ _ k')

theorem datum_change (c : Custody δ) (k k' : Nat) (f : δ → δ) :
    (c.change k f).datum k' = if k = k' then (c.datum k').map f else c.datum k' := by
  unfold datum change
  rw [Array.getElem?_modify]
  by_cases hk : k = k'
  · rw [if_pos hk, if_pos hk, Option.map_map, Option.map_map]
    rfl
  · rw [if_neg hk, if_neg hk]

theorem isSome_datum_use (c : Custody δ) (i : Id) (u : Option (Use δ)) (k : Nat) :
    ((c.use i u).datum k).isSome = (c.datum k).isSome := by
  cases u with
  | none => rfl
  | some u =>
      cases u with
      | takes k' => exact congrArg Option.isSome (datum_mark c i k' _ _ k)
      | frees ks => exact congrArg Option.isSome (datum_drop c i ks k)
      | changes k' f =>
          show ((c.change k' f).datum k).isSome = _
          rw [datum_change]
          by_cases hk : k' = k
          · rw [if_pos hk, Option.isSome_map]
          · rw [if_neg hk]

/-!
# Sound custody
-/

/-- There is at most one guard of each mutex, and a mutex knows whether there is one. -/
structure Sound (c : Custody δ) : Prop where
  single : ∀ i, (c.locks i).Nodup
  unique : ∀ i j k, k ∈ c.locks i → k ∈ c.locks j → i = j
  flag : ∀ k mutex, c.mutexes[k]? = some mutex → (mutex.locked = true ↔ ∃ i, k ∈ c.locks i)

/-- A thread may use mutexes so: it takes what is free, and else uses what it holds. -/
def Allows (c : Custody δ) (i : Id) : Option (Use δ) → Prop
  | none => True
  | some (.takes k) => ∀ j, k ∉ c.locks j
  | some (.changes k _) => k ∈ c.locks i
  | some (.frees ks) => ks.Nodup ∧ ∀ k ∈ ks, k ∈ c.locks i

theorem locks_mark_self (c : Custody δ) (i : Id) (k : Nat) (locked : Bool) (ks : List Nat) :
    (c.mark i k locked ks).locks i = ks :=
  Function.update_self _ _ _

theorem locks_mark_of_ne {j : Id} (hne : j ≠ i) (k : Nat) (locked : Bool) (ks : List Nat) :
    (c.mark i k locked ks).locks j = c.locks j :=
  Function.update_of_ne hne _ _

section Marks

variable {locked : Bool} {ks : List Nat} {j : Id}

theorem mem_mark_iff (hothers : ∀ k', k' ≠ k → (k' ∈ ks ↔ k' ∈ c.locks i)) (hne : k' ≠ k) :
    k' ∈ (c.mark i k locked ks).locks j ↔ k' ∈ c.locks j := by
  by_cases hj : j = i
  · rw [hj, locks_mark_self]
    exact hothers k' hne
  · rw [locks_mark_of_ne hj]

theorem eq_of_mem_mark (halone : ∀ j, j ≠ i → k ∉ c.locks j)
    (hmem : k ∈ (c.mark i k locked ks).locks j) : j = i := by
  by_contra hj
  rw [locks_mark_of_ne hj] at hmem
  exact halone j hj hmem

theorem Sound.mark (hc : c.Sound) (hnodup : ks.Nodup) (hlocked : locked = true ↔ k ∈ ks)
    (hothers : ∀ k', k' ≠ k → (k' ∈ ks ↔ k' ∈ c.locks i)) (halone : ∀ j, j ≠ i → k ∉ c.locks j) :
    (c.mark i k locked ks).Sound where
  single := by
    intro j
    by_cases hj : j = i
    · rw [hj, locks_mark_self]
      exact hnodup
    · rw [locks_mark_of_ne hj]
      exact hc.single j
  unique := by
    intro j j' k' hmem hmem'
    by_cases hk : k' = k
    · subst hk
      exact (eq_of_mem_mark halone hmem).trans (eq_of_mem_mark halone hmem').symm
    · rw [mem_mark_iff hothers hk] at hmem hmem'
      exact hc.unique j j' k' hmem hmem'
  flag := by
    intro k' mutex hmutex
    unfold Custody.mark at hmutex
    rw [Array.getElem?_modify] at hmutex
    by_cases hk : k' = k
    · subst hk
      rw [if_pos rfl] at hmutex
      rcases Option.map_eq_some_iff.mp hmutex with ⟨mutex', -, rfl⟩
      refine hlocked.trans ⟨fun hmem => ⟨i, ?_⟩, ?_⟩
      · rw [locks_mark_self]
        exact hmem
      · rintro ⟨j, hmem⟩
        rw [eq_of_mem_mark halone hmem, locks_mark_self] at hmem
        exact hmem
    · rw [if_neg (Ne.symm hk)] at hmutex
      simp only [mem_mark_iff hothers hk]
      exact hc.flag k' mutex hmutex

end Marks

theorem mem_take_of_ne {j : Id} (hne : k' ≠ k) : k' ∈ (c.take i k).locks j ↔ k' ∈ c.locks j :=
  mem_mark_iff (fun _ hother => List.mem_cons.trans (or_iff_right hother)) hne

theorem mem_take_iff (hfree : ∀ j, k ∉ c.locks j) (j : Id) :
    k ∈ (c.take i k).locks j ↔ j = i := by
  refine ⟨fun hmem => eq_of_mem_mark (fun j _ => hfree j) hmem, ?_⟩
  rintro rfl
  unfold take
  rw [locks_mark_self]
  exact List.mem_cons_self

theorem Sound.take (hc : c.Sound) (hfree : ∀ j, k ∉ c.locks j) : (c.take i k).Sound := by
  refine hc.mark (List.nodup_cons.mpr ⟨hfree i, hc.single i⟩) ?_ ?_ fun j _ => hfree j
  · exact iff_of_true rfl List.mem_cons_self
  · intro k' hne
    exact List.mem_cons.trans (or_iff_right hne)

theorem Sound.free (hc : c.Sound) (hheld : k ∈ c.locks i) : (c.free i k).Sound := by
  refine hc.mark ((hc.single i).erase k) ?_ ?_ fun j hj hmem => hj (hc.unique j i k hmem hheld)
  · exact iff_of_false Bool.false_ne_true (hc.single i).not_mem_erase
  · intro k' hne
    exact List.mem_erase_of_ne hne

theorem Sound.change (hc : c.Sound) (k : Nat) (f : δ → δ) : (c.change k f).Sound where
  single := hc.single
  unique := hc.unique
  flag := by
    intro k' mutex hmutex
    unfold Custody.change at hmutex
    rw [Array.getElem?_modify] at hmutex
    by_cases hk : k = k'
    · rw [if_pos hk] at hmutex
      rcases Option.map_eq_some_iff.mp hmutex with ⟨mutex', hmutex', rfl⟩
      exact hc.flag k' mutex' hmutex'
    · rw [if_neg hk] at hmutex
      exact hc.flag k' mutex hmutex

theorem mem_free_of_ne {j : Id} (hne : k' ≠ k) : k' ∈ (c.free i k).locks j ↔ k' ∈ c.locks j :=
  mem_mark_iff (fun _ hother => List.mem_erase_of_ne hother) hne

theorem Sound.not_mem_free (hc : c.Sound) (hheld : k ∈ c.locks i) (j : Id) :
    k ∉ (c.free i k).locks j := by
  intro hmem
  have hj := eq_of_mem_mark (fun j hj hmem => hj (hc.unique j i k hmem hheld)) hmem
  rw [hj, Custody.free, locks_mark_self] at hmem
  exact (hc.single i).not_mem_erase hmem

theorem Sound.drop (hc : c.Sound) {ks : List Nat} (hnodup : ks.Nodup)
    (hheld : ∀ k ∈ ks, k ∈ c.locks i) :
    (c.drop i ks).Sound ∧ ∀ j k, k ∈ (c.drop i ks).locks j ↔ k ∈ c.locks j ∧ k ∉ ks := by
  induction ks generalizing c with
  | nil => exact ⟨hc, fun j k => (and_iff_left List.not_mem_nil).symm⟩
  | cons k ks ih =>
      rw [List.nodup_cons] at hnodup
      have hk := hheld k List.mem_cons_self
      have hrest : ∀ k' ∈ ks, k' ∈ (c.free i k).locks i := by
        intro k' hmem
        refine (mem_free_of_ne ?_).mpr (hheld k' (List.mem_cons_of_mem k hmem))
        rintro rfl
        exact hnodup.1 hmem
      rcases ih (hc.free hk) hnodup.2 hrest with ⟨hsound, hlocks⟩
      refine ⟨hsound, fun j k' => (hlocks j k').trans ?_⟩
      rw [List.mem_cons, not_or]
      by_cases hne : k' = k
      · subst hne
        exact iff_of_false (fun h => hc.not_mem_free hk j h.1) fun h => h.2.1 rfl
      · rw [mem_free_of_ne hne]
        exact and_congr_right fun _ => (and_iff_right hne).symm

theorem Sound.use (hc : c.Sound) {u : Option (Use δ)} (hallows : c.Allows i u) :
    (c.use i u).Sound := by
  cases u with
  | none => exact hc
  | some u =>
      cases u with
      | takes k => exact hc.take hallows
      | changes k f => exact hc.change k f
      | frees ks => exact (hc.drop hallows.1 hallows.2).1

end Custody

namespace Machine

variable {μ σ ν δ : Type} {m m' : Machine μ σ ν δ} {i : Id} {k : Nat}

/-!
# The custody of a machine
-/

def locksOf (m : Machine μ σ ν δ) (i : Id) : List Nat :=
  if i = m.running then m.locks else ((m.frames.get? i).map Frame.locks).getD []

def custody (m : Machine μ σ ν δ) : Custody δ :=
  ⟨m.mutexes, m.locksOf⟩

def taking (m : Machine μ σ ν δ) (k : Nat) : Option (Use δ) :=
  match m.mutexes[k]? with
  | none => none
  | some mutex => if mutex.locked then none else some (.takes k)

def changing (m : Machine μ σ ν δ) (k : Nat) (f : δ → δ) : Option (Use δ) :=
  if m.locks.contains k && (m.mutexes[k]?).isSome then some (.changes k f) else none

def useOf (m : Machine μ σ ν δ) : Ask σ δ → Option (Use δ)
  | .tryLock k => m.taking k
  | .unlock k => if m.locks.contains k then some (.frees [k]) else none
  | .update k f => m.changing k f
  | .finish _ => if m.running = 1 then none else some (.frees m.locks)
  | _ => none

def use? (w : World μ σ ν δ) (m : Machine μ σ ν δ) : Option (Use δ) :=
  match m.phase with
  | .code state response => m.useOf (w.turn m.memory state response).ask
  | .locking k _ => m.taking k
  | _ => none

theorem locksOf_self (m : Machine μ σ ν δ) : m.locksOf m.running = m.locks :=
  if_pos rfl

theorem custody_relock (m : Machine μ σ ν δ) (mutexes : Array (Mutex δ)) (locks : List Nat) :
    ({ m with mutexes, locks } : Machine μ σ ν δ).custody =
      ⟨mutexes, Function.update m.locksOf m.running locks⟩ := by
  unfold custody
  congr 1
  funext i
  unfold locksOf
  by_cases hi : i = m.running
  · rw [hi, Function.update_self]
    exact if_pos rfl
  · rw [Function.update_of_ne hi]
    simp only [if_neg hi]

/-!
# Steps of thread code
-/

theorem custody_takePending (m : Machine μ σ ν δ) (next : Phase σ δ) :
    (m.takePending next).custody = m.custody := by
  unfold takePending
  cases m.pending with
  | none => rfl
  | some mask => cases m.cpu.enabled <;> rfl

theorem custody_dropGuard (m : Machine μ σ ν δ) (guard : Guard) (next : Phase σ δ) :
    (m.dropGuard guard next).custody = m.custody :=
  custody_takePending _ next

theorem custody_awaitInterrupt (m : Machine μ σ ν δ) {after : Machine μ σ ν δ → Machine μ σ ν δ}
    (hafter : ∀ m' : Machine μ σ ν δ, (after m').custody = m'.custody) :
    (m.awaitInterrupt after).custody = m.custody := by
  unfold awaitInterrupt
  cases m.cpu.maskable with
  | false => exact hafter m
  | true =>
      cases m.upcoming with
      | nil => rfl
      | cons mask rest => exact hafter _

theorem setIfInBounds_eq_modify {mutexes : Array (Mutex δ)} {mutex : Mutex δ}
    (hmutex : mutexes[k]? = some mutex) (f : Mutex δ → Mutex δ) :
    mutexes.setIfInBounds k (f mutex) = mutexes.modify k f := by
  apply Array.ext_getElem?
  intro k'
  rw [Array.getElem?_modify, Array.getElem?_setIfInBounds]
  by_cases hk : k = k'
  · subst hk
    have hlt := (Array.getElem?_eq_some_iff.mp hmutex).1
    rw [if_pos rfl, if_pos rfl, if_pos hlt, hmutex]
    rfl
  · rw [if_neg hk, if_neg hk]

theorem tryLock_absent (hmutex : m.mutexes[k]? = none) : m.tryLock k = (.noSuchMutex, m) := by
  unfold tryLock
  rw [hmutex]

theorem tryLock_locked {mutex : Mutex δ} (hmutex : m.mutexes[k]? = some mutex)
    (hlocked : mutex.locked = true) : m.tryLock k = (.busy, m) := by
  unfold tryLock
  simp only [hmutex, Mutex.tryLock?_of_locked hlocked]

theorem tryLock_free {mutex : Mutex δ} (hmutex : m.mutexes[k]? = some mutex)
    (hlocked : mutex.locked = false) :
    m.tryLock k = (.locked mutex.data,
      { m with
        mutexes := m.mutexes.modify k fun mutex => { mutex with locked := true }
        locks := k :: m.locks }) := by
  rw [← setIfInBounds_eq_modify hmutex]
  unfold tryLock
  simp only [hmutex, Mutex.tryLock?_of_free hlocked]
  rfl

theorem custody_tryLock (m : Machine μ σ ν δ) (k : Nat) :
    (m.tryLock k).2.custody = m.custody.use m.running (m.taking k) := by
  unfold taking
  cases hmutex : m.mutexes[k]? with
  | none =>
      rw [tryLock_absent hmutex]
      rfl
  | some mutex =>
      cases hlocked : mutex.locked with
      | true =>
          rw [tryLock_locked hmutex hlocked]
          simp only [hlocked, if_true]
          rfl
      | false =>
          rw [tryLock_free hmutex hlocked, custody_relock, ← locksOf_self]
          simp only [hlocked, Bool.false_eq_true, if_false]
          rfl

theorem custody_unlock (m : Machine μ σ ν δ) (k : Nat) :
    (m.unlock k).2.custody = m.custody.use m.running (m.useOf (.unlock k : Ask σ δ)) := by
  unfold unlock useOf
  cases hheld : m.locks.contains k with
  | true =>
      simp only [hheld, if_true]
      refine (custody_relock m (m.mutexes.modify k Mutex.unlock) (m.locks.erase k)).trans ?_
      rw [← locksOf_self]
      rfl
  | false =>
      simp only [hheld, Bool.false_eq_true, if_false]
      rfl

theorem custody_update (m : Machine μ σ ν δ) (k : Nat) (f : δ → δ) :
    (m.update k f).2.custody = m.custody.use m.running (m.changing k f) := by
  unfold update changing
  cases m.locks.contains k with
  | false => rfl
  | true =>
      cases hmutex : m.mutexes[k]? with
      | none => rfl
      | some mutex =>
          have hset := setIfInBounds_eq_modify hmutex fun mutex => mutex.update f
          simp only [setMutex]
          rw [hset]
          rfl

theorem foldl_freeMutex (m : Machine μ σ ν δ) (ks : List Nat) :
    ks.foldl freeMutex m =
      { m with
        mutexes := ks.foldl (fun mutexes k => mutexes.modify k Mutex.unlock) m.mutexes } := by
  induction ks generalizing m with
  | nil => rfl
  | cons k ks ih => exact ih (m.freeMutex k)

theorem custody_unlockAll (m : Machine μ σ ν δ) :
    m.unlockAll.custody = m.custody.use m.running (some (.frees m.locks)) := by
  have hnone : (m.custody.locks m.running).diff m.locks = [] := by
    rw [show m.custody.locks m.running = m.locks from m.locksOf_self]
    induction m.locks with
    | nil => rfl
    | cons k ks ih => rw [List.diff_cons, List.erase_cons_head, ih]
  unfold unlockAll
  rw [foldl_freeMutex]
  refine (custody_relock m _ []).trans ?_
  rw [← hnone]
  exact (Custody.drop_eq m.custody m.running m.locks).symm

theorem custody_finishBody (m : Machine μ σ ν δ) (code : Int32) :
    (m.finishBody code).custody = m.custody.use m.running (some (.frees m.locks)) :=
  (custody_takePending _ _).trans (custody_unlockAll m)

theorem custody_serve (m : Machine μ σ ν δ) (state : σ) (ask : Ask σ δ) :
    (m.serve state ask).custody = m.custody.use m.running (m.useOf ask) := by
  cases ask with
  | call c => rfl
  | mask => rfl
  | unmask =>
      unfold serve
      cases m.guards with
      | nil => rfl
      | cons guard rest => exact custody_dropGuard _ guard _
  | setInterrupts on => exact custody_takePending _ _
  | interruptsEnabled => rfl
  | halt =>
      unfold serve
      cases m.cpu.enabled with
      | false => rfl
      | true => exact custody_awaitInterrupt _ fun m' => custody_dropGuard m' _ _
  | lock k => rfl
  | tryLock k => exact custody_tryLock m k
  | unlock k => exact custody_unlock m k
  | isLocked k => rfl
  | update k f => exact custody_update m k f
  | pause => rfl
  | finish code =>
      unfold serve useOf
      by_cases hmain : m.running = 1
      · simp only [hmain, if_true]
        rfl
      · simp only [hmain, if_false]
        exact custody_finishBody m code
  | panic p => rfl

theorem custody_attemptLock (m : Machine μ σ ν δ) (k : Nat) (state : σ) :
    (m.attemptLock k state).custody = m.custody.use m.running (m.taking k) := by
  rw [← custody_tryLock]
  unfold attemptLock
  split <;> rename_i hlock <;> rw [hlock] <;> rfl

theorem custody_idle (m : Machine μ σ ν δ) : m.idle.custody = m.custody := by
  have hyields : ∀ (m' : Machine μ σ ν δ) guard,
      (m'.dropGuard guard (.invoke .yield .idle)).custody = m'.custody :=
    fun m' guard => custody_dropGuard m' guard _
  unfold idle
  by_cases hready : m.system.scheduler.stats.readyThreads = 0
  · simp only [hready, if_true]
    exact custody_awaitInterrupt _ fun m' => hyields m' _
  · simp only [hready, if_false]
    exact hyields _ _

/-!
# Calls and interrupts
-/

theorem custody_schedule (w : World μ σ ν δ) (m : Machine μ σ ν δ) (guard : Guard)
    (c : Call (Body σ)) (caller : Caller σ) :
    (m.schedule w guard c caller).custody = m.custody := by
  unfold schedule
  cases hvalue : (m.system.begin (w.supply m.stages) c).value with
  | switch t resume =>
      simp only [hvalue]
      rfl
  | ended e =>
      simp only [hvalue]
      cases e <;> rfl

/-- A thread that leaves the processor keeps its guards, and one that comes has those it had. -/
theorem custody_switchTo {guard : Guard} {t : Transfer} {resume : Resume} {caller : Caller σ}
    (hsource : t.source.id = m.running) :
    (m.switchTo guard t resume caller).custody = m.custody := by
  have hget : ∀ i, (((m.frames.put t.source.id ⟨m.guards, m.locks, guard, resume, caller⟩).get?
      i).map Frame.locks).getD [] = m.locksOf i := by
    intro i
    rw [Frames.get?_put, hsource]
    unfold locksOf
    by_cases hi : i = m.running
    · rw [if_pos hi, if_pos hi]
      rfl
    · rw [if_neg hi, if_neg hi]
  have hlocks : (m.switchTo guard t resume caller).locksOf = m.locksOf := by
    funext i
    rw [← hget i]
    unfold switchTo locksOf
    cases hframe : (m.frames.put t.source.id ⟨m.guards, m.locks, guard, resume, caller⟩).get?
        t.target.id with
    | none =>
        simp only [hframe]
        by_cases hi : i = t.target.id
        · rw [if_pos hi, hi, hframe]
          rfl
        · rw [if_neg hi]
    | some frame =>
        simp only [hframe]
        by_cases hi : i = t.target.id
        · rw [if_pos hi, hi, hframe]
          rfl
        · rw [if_neg hi, Frames.get?_erase, if_neg hi]
  unfold custody
  rw [hlocks]
  congr 1
  unfold switchTo
  cases hframe : (m.frames.put t.source.id ⟨m.guards, m.locks, guard, resume, caller⟩).get?
      t.target.id <;> simp only [hframe]

theorem custody_resume (w : World μ σ ν δ) (m : Machine μ σ ν δ) (guard : Guard) (resume : Resume)
    (caller : Caller σ) : (m.resume w guard resume caller).custody = m.custody := by
  unfold Machine.resume
  cases hvalue : (m.system.finish (w.supply m.stages) resume).value <;> simp only [hvalue] <;> rfl

theorem custody_start (w : World μ σ ν δ) (m : Machine μ σ ν δ) :
    (m.start w).custody = m.custody := by
  unfold start
  cases hvalue : (m.system.start (w.supply m.stages)).value with
  | none =>
      simp only [hvalue]
      exact custody_takePending _ _
  | some body =>
      simp only [hvalue]
      cases body <;> exact custody_takePending _ _

theorem custody_answer (m : Machine μ σ ν δ) (guard : Guard) (r : Except Error Reply)
    (caller : Caller σ) : (m.answer guard r caller).custody = m.custody := by
  cases caller with
  | code state => exact custody_dropGuard m guard _
  | locking k state => exact custody_dropGuard m guard _
  | idle => cases r <;> exact custody_dropGuard _ guard _

theorem custody_arrive (m : Machine μ σ ν δ) (arrival : Option Mask) :
    (m.arrive arrival).custody = m.custody := by
  cases arrival with
  | none => rfl
  | some mask =>
      unfold arrive
      cases hopen : m.phase.isOpen with
      | true =>
          simp only [hopen, if_true]
          exact custody_takePending _ m.phase
      | false =>
          simp only [hopen]
          rfl

/-!
# Every step
-/

/-- A step does to mutexes what the running thread asked for, and nothing else. -/
theorem custody_step (w : World μ σ ν δ) {p : History σ} (he : p.Explains m.view) :
    (m.step w).custody = m.custody.use m.running (m.use? w) := by
  unfold step use?
  cases hphase : m.phase with
  | code state response => exact custody_serve _ _ _
  | locking k state => exact custody_attemptLock m k state
  | idle => exact custody_idle m
  | invoke c caller => rfl
  | schedule guard c caller => exact custody_schedule w m guard c caller
  | switch guard t resume caller =>
      exact custody_switchTo (he.leaves (view_phase hphase)).2.1
  | resume guard resume caller => exact custody_resume w m guard resume caller
  | start => exact custody_start w m
  | answer guard r caller => exact custody_answer m guard r caller
  | interrupt guard mask next => exact custody_dropGuard _ guard next
  | stopped why => rfl

theorem allows_taking (hsound : m.custody.Sound) (k : Nat) :
    m.custody.Allows m.running (m.taking k) := by
  unfold taking
  cases hmutex : m.mutexes[k]? with
  | none => trivial
  | some mutex =>
      cases hlocked : mutex.locked with
      | true =>
          simp only [hlocked, if_true]
          trivial
      | false =>
          simp only [hlocked, Bool.false_eq_true, if_false]
          intro j hmem
          have hflag := (hsound.flag k mutex hmutex).mpr ⟨j, hmem⟩
          rw [hlocked] at hflag
          cases hflag

theorem allows_useOf (hsound : m.custody.Sound) (ask : Ask σ δ) :
    m.custody.Allows m.running (m.useOf ask) := by
  have hmine : m.custody.locks m.running = m.locks := m.locksOf_self
  cases ask with
  | tryLock k => exact allows_taking hsound k
  | unlock k =>
      unfold useOf
      by_cases hheld : m.locks.contains k
      · simp only [hheld, if_true]
        refine ⟨List.nodup_singleton k, fun k' hmem => ?_⟩
        rw [List.mem_singleton.mp hmem, hmine]
        exact List.contains_iff_mem.mp hheld
      · simp only [hheld]
        trivial
  | update k f =>
      unfold useOf changing
      by_cases hheld : m.locks.contains k && (m.mutexes[k]?).isSome
      · simp only [hheld, if_true]
        show k ∈ m.custody.locks m.running
        rw [hmine]
        exact List.contains_iff_mem.mp (Bool.and_elim_left hheld)
      · simp only [hheld]
        trivial
  | finish code =>
      unfold useOf
      by_cases hmain : m.running = 1
      · simp only [hmain, if_true]
        trivial
      · simp only [hmain, if_false]
        rw [← hmine]
        exact ⟨hsound.single m.running, fun _ hmem => hmem⟩
  | _ => trivial

/-- Thread code takes only what is free, and changes and drops only what it holds. -/
theorem allows_use (w : World μ σ ν δ) (hsound : m.custody.Sound) :
    m.custody.Allows m.running (m.use? w) := by
  unfold use?
  cases m.phase with
  | code state response => exact allows_useOf hsound _
  | locking k state => exact allows_taking hsound k
  | _ => trivial

/-!
# Timelines
-/

section Timelines

variable {w : World μ σ ν δ} {arrivals : Nat → Option Mask} {p : History σ}

theorem custody_succ (he : p.Explains m.view) (n : Nat) :
    (m.timeline w arrivals (n + 1)).custody =
      (m.timeline w arrivals n).custody.use (m.timeline w arrivals n).running
        ((m.timeline w arrivals n).use? w) :=
  (custody_arrive _ _).trans (custody_step w (explains_timeline w arrivals he n))

theorem sound_timeline (he : p.Explains m.view) (hsound : m.custody.Sound) (n : Nat) :
    (m.timeline w arrivals n).custody.Sound := by
  induction n with
  | zero => exact hsound
  | succ n ih =>
      rw [custody_succ he]
      exact ih.use (allows_use w ih)

end Timelines

theorem locks_create (config : Config) (cpu : Cpu) (upcoming : List Mask) (mutexes : List δ)
    (memory : μ) (main : σ) (i : Id) :
    (create config cpu upcoming mutexes memory main : Machine μ σ ν δ).custody.locks i = [] := by
  show (if i = 1 then [] else []) = []
  rw [ite_self]

theorem sound_create (config : Config) (cpu : Cpu) (upcoming : List Mask) (mutexes : List δ)
    (memory : μ) (main : σ) :
    (create config cpu upcoming mutexes memory main : Machine μ σ ν δ).custody.Sound := by
  refine ⟨?_, ?_, ?_⟩
  · intro i
    rw [locks_create]
    exact List.nodup_nil
  · intro i j k hmem
    rw [locks_create] at hmem
    cases hmem
  · intro k mutex hmutex
    -- no mutex of a new machine knows of a guard
    have hnew : (mutexes.map fun data => ({ data } : Mutex δ)).toArray[k]? = some mutex := hmutex
    rw [List.getElem?_toArray, List.getElem?_map] at hnew
    rcases Option.map_eq_some_iff.mp hnew with ⟨data, -, rfl⟩
    refine iff_of_false Bool.false_ne_true ?_
    rintro ⟨i, hmem⟩
    rw [locks_create] at hmem
    cases hmem

end Machine

end Coop
