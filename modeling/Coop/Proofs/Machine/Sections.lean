import Coop.Proofs.Machine.Attempts

/-!
# Sections under a mutex

A thread that holds the guard of a mutex may be suspended and others may run, but nobody
else gets a guard or changes the data until the holder lets go.  So what the holder found
is what it changes, and the data of a mutex without a guard is what the sections that are
over made of it, in the order in which they began.
-/

namespace Coop

open Thread (Handle Id)

namespace Machine

variable {μ σ ν δ : Type} {m m' : Machine μ σ ν δ} {w : World μ σ ν δ} {i j : Id} {k : Nat}
  {p : History σ}

/-!
# What a step does to one mutex
-/

def takes (w : World μ σ ν δ) (m : Machine μ σ ν δ) (k : Nat) : Bool :=
  match m.use? w with
  | some (.takes k') => k' == k
  | _ => false

def frees (w : World μ σ ν δ) (m : Machine μ σ ν δ) (i : Id) (k : Nat) : Bool :=
  match m.use? w with
  | some (.frees ks) => m.running == i && ks.contains k
  | _ => false

def changes (w : World μ σ ν δ) (m : Machine μ σ ν δ) (i : Id) (k : Nat) : List (δ → δ) :=
  match m.use? w with
  | some (.changes k' f) => if m.running = i ∧ k' = k then [f] else []
  | _ => []

/-- All that a step can do to a mutex. -/
inductive Affects (w : World μ σ ν δ) (m m' : Machine μ σ ν δ) (k : Nat) : Prop where
  | spares : m.takes w k = false → (∀ i, m.frees w i k = false) → (∀ i, m.changes w i k = []) →
      (∀ i, m'.Holds i k ↔ m.Holds i k) → m'.datum k = m.datum k → Affects w m m' k
  | takes : m.takes w k = true → (∀ i, m.frees w i k = false) → ¬ m.Guarded k →
      (∀ i, m'.Holds i k ↔ i = m.running) → m'.datum k = m.datum k → Affects w m m' k
  | changes {f : δ → δ} : m.takes w k = false → (∀ i, m.frees w i k = false) →
      m.changes w m.running k = [f] → m.Holds m.running k → (∀ i, m'.Holds i k ↔ m.Holds i k) →
        m'.datum k = (m.datum k).map f → Affects w m m' k
  | frees : m.takes w k = false → (∀ i, m.frees w i k = true ↔ i = m.running) →
      m.Holds m.running k → ¬ m'.Guarded k → m'.datum k = m.datum k → Affects w m m' k

section Uses

variable (hcustody : m'.custody = m.custody.use m.running (m.use? w))

include hcustody

theorem affects_of_unused (hunused : m.use? w = none) (k : Nat) : Affects w m m' k := by
  rw [hunused] at hcustody
  refine .spares ?_ ?_ ?_ (fun i => ?_) (congrArg (fun c => c.datum k) hcustody)
  · simp only [Machine.takes, hunused]
  · simp only [Machine.frees, hunused, implies_true]
  · simp only [Machine.changes, hunused, implies_true]
  · unfold Holds
    rw [hcustody]
    rfl

theorem affects_of_takes {k' : Nat} (huse : m.use? w = some (.takes k'))
    (hfree : ∀ j, k' ∉ m.custody.locks j) (k : Nat) : Affects w m m' k := by
  rw [huse] at hcustody
  have hdatum : m'.datum k = m.datum k :=
    (congrArg (fun c => c.datum k) hcustody).trans (Custody.datum_mark m.custody m.running k' _ _ k)
  by_cases hk : k = k'
  · subst hk
    refine .takes ?_ ?_ ?_ (fun i => ?_) hdatum
    · simp only [Machine.takes, huse, beq_self_eq_true]
    · simp only [Machine.frees, huse, implies_true]
    · rintro ⟨i, hmem⟩
      exact hfree i hmem
    · unfold Holds
      rw [hcustody]
      exact Custody.mem_take_iff hfree i
  · refine .spares ?_ ?_ ?_ (fun i => ?_) hdatum
    · simp only [Machine.takes, huse, beq_eq_false_iff_ne]
      exact Ne.symm hk
    · simp only [Machine.frees, huse, implies_true]
    · simp only [Machine.changes, huse, implies_true]
    · unfold Holds
      rw [hcustody]
      exact Custody.mem_take_of_ne hk

theorem affects_of_changes {k' : Nat} {f : δ → δ} (huse : m.use? w = some (.changes k' f))
    (hheld : k' ∈ m.custody.locks m.running) (k : Nat) : Affects w m m' k := by
  rw [huse] at hcustody
  have hdatum : m'.datum k = if k' = k then (m.datum k).map f else m.datum k :=
    (congrArg (fun c => c.datum k) hcustody).trans (Custody.datum_change m.custody k' k f)
  have htakes : m.takes w k = false := by simp only [Machine.takes, huse]
  have hfrees : ∀ i, m.frees w i k = false := by simp only [Machine.frees, huse, implies_true]
  have hholds : ∀ i, m'.Holds i k ↔ m.Holds i k := by
    intro i
    unfold Holds
    rw [hcustody]
    rfl
  by_cases hk : k' = k
  · subst hk
    rw [if_pos rfl] at hdatum
    refine .changes htakes hfrees ?_ hheld hholds hdatum
    simp only [Machine.changes, huse, and_self, if_true]
  · rw [if_neg hk] at hdatum
    refine .spares htakes hfrees ?_ hholds hdatum
    simp only [Machine.changes, huse, hk, and_false, if_false, implies_true]

theorem affects_of_frees (hsound : m.custody.Sound) {ks : List Nat}
    (huse : m.use? w = some (.frees ks)) (hnodup : ks.Nodup)
    (hheld : ∀ k ∈ ks, k ∈ m.custody.locks m.running) (k : Nat) : Affects w m m' k := by
  rw [huse] at hcustody
  have hdatum : m'.datum k = m.datum k :=
    (congrArg (fun c => c.datum k) hcustody).trans (Custody.datum_drop m.custody m.running ks k)
  have hholds : ∀ i, m'.Holds i k ↔ m.Holds i k ∧ k ∉ ks := by
    intro i
    unfold Holds
    rw [hcustody]
    exact (hsound.drop hnodup hheld).2 i k
  have htakes : m.takes w k = false := by simp only [Machine.takes, huse]
  by_cases hk : k ∈ ks
  · refine .frees htakes (fun i => ?_) (hheld k hk) ?_ hdatum
    · simp only [Machine.frees, huse, Bool.and_eq_true, beq_iff_eq, List.contains_iff_mem, hk,
        and_true]
      exact eq_comm
    · rintro ⟨i, hmem⟩
      exact ((hholds i).mp hmem).2 hk
  · refine .spares htakes (fun i => ?_) ?_ (fun i => ?_) hdatum
    · simp only [Machine.frees, huse, Bool.and_eq_false_iff]
      exact .inr (by simpa using hk)
    · simp only [Machine.changes, huse, implies_true]
    · rw [hholds i]
      exact and_iff_left hk

theorem affects_of_use (hsound : m.custody.Sound) (k : Nat) : Affects w m m' k := by
  have hallows := allows_use w hsound
  cases huse : m.use? w with
  | none => exact affects_of_unused hcustody huse k
  | some u =>
      rw [huse] at hallows
      cases u with
      | takes k' => exact affects_of_takes hcustody huse hallows k
      | changes k' f => exact affects_of_changes hcustody huse hallows k
      | frees ks => exact affects_of_frees hcustody hsound huse hallows.1 hallows.2 k

end Uses

theorem guarded_congr (hholds : ∀ i, m'.Holds i k ↔ m.Holds i k) : m'.Guarded k ↔ m.Guarded k :=
  exists_congr hholds

theorem Affects.takes_iff (haffects : Affects w m m' k) :
    m.takes w k = true ↔ ¬ m.Guarded k ∧ m'.Guarded k := by
  cases haffects with
  | spares htakes _ _ hholds _ =>
      rw [htakes, guarded_congr hholds]
      exact iff_of_false Bool.false_ne_true fun h => h.1 h.2
  | takes htakes _ hfree hholds _ =>
      exact iff_of_true htakes ⟨hfree, m.running, (hholds _).mpr rfl⟩
  | changes htakes _ _ hholder _ _ =>
      rw [htakes]
      exact iff_of_false Bool.false_ne_true fun h => h.1 ⟨_, hholder⟩
  | frees htakes _ hholder _ _ =>
      rw [htakes]
      exact iff_of_false Bool.false_ne_true fun h => h.1 ⟨_, hholder⟩

theorem Affects.frees_iff (haffects : Affects w m m' k) (hsound : m.custody.Sound) (i : Id) :
    m.frees w i k = true ↔ m.Holds i k ∧ ¬ m'.Holds i k := by
  cases haffects with
  | spares _ hfrees _ hholds _ =>
      rw [hfrees, hholds]
      exact iff_of_false Bool.false_ne_true fun h => h.2 h.1
  | takes _ hfrees hfree _ _ =>
      rw [hfrees]
      exact iff_of_false Bool.false_ne_true fun h => hfree ⟨i, h.1⟩
  | changes _ hfrees _ _ hholds _ =>
      rw [hfrees, hholds]
      exact iff_of_false Bool.false_ne_true fun h => h.2 h.1
  | frees _ hfrees hholder hfree _ =>
      rw [hfrees]
      constructor
      · rintro rfl
        exact ⟨hholder, fun hmem => hfree ⟨_, hmem⟩⟩
      · rintro ⟨hmem, -⟩
        exact hsound.unique i _ k hmem hholder

/-!
# What thread code asked for
-/

/-- The uses that thread code can ask for. -/
inductive Asked : Ask σ δ → Use δ → Prop where
  | tryLock {k : Nat} : Asked (.tryLock k) (.takes k)
  | unlock {k : Nat} : Asked (.unlock k) (.frees [k])
  | update {k : Nat} {f : δ → δ} : Asked (.update k f) (.changes k f)
  | finish {code : Int32} {ks : List Nat} : Asked (.finish code) (.frees ks)

theorem eq_takes_of_taking {u : Use δ} (huse : m.taking k = some u) : u = .takes k := by
  unfold taking at huse
  split at huse
  · cases huse
  · split at huse
    · cases huse
    · cases huse
      rfl

theorem asked_of_useOf {ask : Ask σ δ} {u : Use δ} (huse : m.useOf ask = some u) : Asked ask u := by
  cases ask with
  | tryLock k =>
      rw [eq_takes_of_taking huse]
      exact .tryLock
  | unlock k =>
      simp only [useOf, Option.ite_none_right_eq_some, Option.some.injEq] at huse
      rw [← huse.2]
      exact .unlock
  | update k f =>
      simp only [useOf, changing, Option.ite_none_right_eq_some, Option.some.injEq] at huse
      rw [← huse.2]
      exact .update
  | finish code =>
      simp only [useOf, Option.ite_none_left_eq_some, Option.some.injEq] at huse
      rw [← huse.2]
      exact .finish
  | _ => cases huse

theorem asked_of_use? {u : Use δ} (huse : m.use? w = some u) :
    (∃ ask next, m.AsksFor w m.running ask next ∧ Asked ask u) ∨ ∃ k, u = .takes k := by
  unfold use? at huse
  cases hphase : m.phase with
  | code state response =>
      rw [hphase] at huse
      exact .inl ⟨_, _, ⟨state, response, ⟨rfl, hphase⟩, rfl, rfl⟩, asked_of_useOf huse⟩
  | locking k state =>
      rw [hphase] at huse
      exact .inr ⟨k, eq_takes_of_taking huse⟩
  | _ =>
      rw [hphase] at huse
      cases huse

theorem asksFor_of_changes {f : δ → δ} (hchanges : m.changes w m.running k = [f]) :
    ∃ next, m.AsksFor w m.running (.update k f) next := by
  unfold changes at hchanges
  split at hchanges
  · rename_i k' f' huse
    split at hchanges
    · rename_i hsame
      cases hchanges
      rcases asked_of_use? huse with ⟨ask, next, hasks, hasked⟩ | ⟨k'', htakes⟩
      · cases hasked
        rw [hsame.2] at hasks
        exact ⟨next, hasks⟩
      · cases htakes
    · cases hchanges
  · cases hchanges

theorem asksFor_of_frees (hfrees : m.frees w i k = true) :
    ∃ ask next, m.AsksFor w i ask next ∧ (ask = .unlock k ∨ ∃ code, ask = .finish code) := by
  unfold frees at hfrees
  split at hfrees
  · rename_i ks huse
    rw [Bool.and_eq_true, beq_iff_eq, List.contains_iff_mem] at hfrees
    rcases hfrees with ⟨rfl, hmem⟩
    rcases asked_of_use? huse with ⟨ask, next, hasks, hasked⟩ | ⟨k', htakes⟩
    · refine ⟨ask, next, hasks, ?_⟩
      cases hasked with
      | unlock =>
          rw [List.mem_singleton.mp hmem]
          exact .inl rfl
      | finish => exact .inr ⟨_, rfl⟩
    · cases htakes
  · cases hfrees

/-!
# Sections
-/

def acquisitions (w : World μ σ ν δ) (t : Nat → Machine μ σ ν δ) (k n : Nat) : List Nat :=
  (List.range n).filter fun a => (t a).takes w k

/--
Each section that is over before a moment makes a function of what it finds: the changes
of the thread that takes the mutex at moment `a`, until it lets go of it, come to `f a`.
-/
def Sectioned (w : World μ σ ν δ) (t : Nat → Machine μ σ ν δ) (k : Nat) (f : Nat → δ → δ)
    (n : Nat) : Prop :=
  ∀ i a b data, (t a).takes w k = true → (t a).running = i → (t a).datum k = some data →
    First (fun b => (t b).frees w i k = true) a b → b < n →
      (between (fun c => (t c).changes w i k) a b).foldl (fun data change => change data) data =
        f a data

theorem acquisitions_succ (w : World μ σ ν δ) (t : Nat → Machine μ σ ν δ) (k n : Nat) :
    acquisitions w t k (n + 1) =
      acquisitions w t k n ++ if (t n).takes w k then [n] else [] := by
  unfold acquisitions
  rw [List.range_succ, List.filter_append]
  cases htakes : (t n).takes w k <;> simp [htakes]

/-- A thread is in the middle of the section that it began at moment `a`. -/
structure Underway (w : World μ σ ν δ) (t : Nat → Machine μ σ ν δ) (k : Nat) (i : Id) (a : Nat)
    (data : δ) (n : Nat) : Prop where
  lt : a < n
  took : (t a).takes w k = true
  runner : (t a).running = i
  found : (t a).datum k = some data
  holder : ∀ j, (t n).Holds j k ↔ j = i
  middle : ∀ b, a < b → b < n → (t b).frees w i k ≠ true
  last : acquisitions w t k n = acquisitions w t k a ++ [a]
  now : (t n).datum k =
    some ((between (fun c => (t c).changes w i k) a n).foldl (fun data change => change data) data)

/-- What the sections so far have to do with the data of a mutex. -/
inductive Ledger (w : World μ σ ν δ) (t : Nat → Machine μ σ ν δ) (k : Nat) (f : Nat → δ → δ)
    (initial : δ) (n : Nat) : Prop where
  | free : ¬ (t n).Guarded k →
      (t n).datum k = some ((acquisitions w t k n).foldl (fun data a => f a data) initial) →
        Ledger w t k f initial n
  /-- A section is under way, and found what the sections before it left. -/
  | held {i : Id} {a : Nat} : Underway w t k i a
      ((acquisitions w t k a).foldl (fun data a => f a data) initial) n →
        Ledger w t k f initial n

section Ledgers

variable {t : Nat → Machine μ σ ν δ} {f : Nat → δ → δ} {initial data : δ} {a n : Nat}

theorem acquisitions_of_not_takes (htakes : (t n).takes w k = false) :
    acquisitions w t k (n + 1) = acquisitions w t k n := by
  rw [acquisitions_succ, htakes, if_neg Bool.false_ne_true, List.append_nil]

theorem underway_of_takes (htakes : (t n).takes w k = true) (hdatum : (t n).datum k = some data)
    (hholds : ∀ j, (t (n + 1)).Holds j k ↔ j = (t n).running)
    (hsame : (t (n + 1)).datum k = (t n).datum k) :
    Underway w t k (t n).running n data (n + 1) where
  lt := Nat.lt_succ_self n
  took := htakes
  runner := rfl
  found := hdatum
  holder := hholds
  middle := fun b hn hb => absurd hn (Nat.not_lt.mpr (Nat.le_of_lt_succ hb))
  last := by rw [acquisitions_succ, htakes, if_pos rfl]
  now := by
    rw [between_succ_self, hsame]
    exact hdatum

theorem Underway.goesOn (hunder : Underway w t k i a data n) (htakes : (t n).takes w k = false)
    (hfrees : (t n).frees w i k = false)
    (hholds : ∀ j, (t (n + 1)).Holds j k ↔ (t n).Holds j k)
    (hchanged : (t (n + 1)).datum k = ((t n).datum k).map fun data =>
      ((t n).changes w i k).foldl (fun data change => change data) data) :
    Underway w t k i a data (n + 1) where
  lt := Nat.lt_succ_of_lt hunder.lt
  took := hunder.took
  runner := hunder.runner
  found := hunder.found
  holder := fun j => (hholds j).trans (hunder.holder j)
  middle := by
    intro b ha hb
    rcases Nat.lt_succ_iff_lt_or_eq.mp hb with hb | rfl
    · exact hunder.middle b ha hb
    · rw [hfrees]
      exact Bool.false_ne_true
  last := (acquisitions_of_not_takes htakes).trans hunder.last
  now := by
    rw [hchanged, hunder.now, between_succ hunder.lt, List.foldl_append]
    rfl

theorem Ledger.succ (hledger : Ledger w t k f initial n) (haffects : Affects w (t n) (t (n + 1)) k)
    (hsectioned : Sectioned w t k f (n + 1)) : Ledger w t k f initial (n + 1) := by
  cases hledger with
  | free hfree hdatum =>
      cases haffects with
      | spares htakes _ _ hholds hsame =>
          refine .free (fun hguarded => hfree ((guarded_congr hholds).mp hguarded)) ?_
          rw [hsame, acquisitions_of_not_takes htakes]
          exact hdatum
      | takes htakes _ _ hholds hsame => exact .held (underway_of_takes htakes hdatum hholds hsame)
      | changes _ _ _ hmine _ _ => exact absurd ⟨_, hmine⟩ hfree
      | frees _ _ hmine _ _ => exact absurd ⟨_, hmine⟩ hfree
  | @held i a hunder =>
      cases haffects with
      | spares htakes hfrees hchanges hholds hsame =>
          refine .held (hunder.goesOn htakes (hfrees i) hholds ?_)
          rw [hchanges i, hsame]
          exact Option.map_id'.symm
      | takes _ _ hfree _ _ => exact absurd ⟨i, (hunder.holder i).mpr rfl⟩ hfree
      | changes htakes hfrees hchanges hmine hholds hchanged =>
          rw [(hunder.holder _).mp hmine] at hchanges
          refine .held (hunder.goesOn htakes (hfrees i) hholds ?_)
          rw [hchanges]
          exact hchanged
      | frees htakes hfrees hmine hfree hsame =>
          -- the section is over, and what became of the data is a function of what it found
          have hlast := (hfrees i).mpr ((hunder.holder _).mp hmine).symm
          have hover := hsectioned i a n _ hunder.took hunder.runner hunder.found
            ⟨hunder.lt, hlast, hunder.middle⟩ (Nat.lt_succ_self n)
          refine .free hfree ?_
          rw [hsame, hunder.now, hover, acquisitions_of_not_takes htakes, hunder.last,
            List.foldl_append]
          rfl

theorem Sectioned.mono {b : Nat} (hsectioned : Sectioned w t k f n) (hb : b ≤ n) :
    Sectioned w t k f b :=
  fun i a c data htook hruns hfound hfirst hc =>
    hsectioned i a c data htook hruns hfound hfirst (Nat.lt_of_lt_of_le hc hb)

end Ledgers

/-!
# Runs
-/

structure Excludes (w : World μ σ ν δ) (t : Nat → Machine μ σ ν δ) : Prop where
  /-- No thread has two guards of one mutex. -/
  single : ∀ n i, ((t n).locksOf i).Nodup
  unique : ∀ n i j k, (t n).Holds i k → (t n).Holds j k → i = j
  kept : ∀ n i k, (t n).Holds i k → (t (n + 1)).Holds i k ∨
    ∃ ask next, (t n).AsksFor w i ask next ∧ (ask = .unlock k ∨ ∃ code, ask = .finish code)
  busy : ∀ n i k next data, (t n).datum k = some data → (t n).AsksFor w i (.tryLock k) next →
    (t n).Guarded k → (t (n + 1)).phase.core = .code next .busy
  tried : ∀ n i k next data, (t n).datum k = some data → (t n).AsksFor w i (.tryLock k) next →
    ¬ (t n).Guarded k →
      (t (n + 1)).phase.core = .code next (.locked data) ∧ (t (n + 1)).Holds i k
  /-- Code that asks for a mutex goes on with a guard, and has yielded once for each failure. -/
  locked : ∀ i k next data a b, (t a).datum k = some data → (t a).AsksFor w i (.lock k) next →
    First (fun n => ∃ state response, (t n).IsTold i state response) a b →
      ∃ a', First (fun n => (t n).TakesTurn i) a a' ∧
        between (fun n => (t n).dealt i) a a' = [] ∧ Acquires t i k next a' b
  changed : ∀ n k data, (t n).datum k = some data → (t (n + 1)).datum k = some data ∨
    ∃ i f next, (t n).AsksFor w i (.update k f) next ∧ (t n).Holds i k ∧
      (t (n + 1)).datum k = some (f data)
  /-- A section begins when there is a guard where there was none. -/
  begins : ∀ n k, (t n).takes w k = true ↔ ¬ (t n).Guarded k ∧ (t (n + 1)).Guarded k
  ends : ∀ n i k, (t n).frees w i k = true ↔ (t n).Holds i k ∧ ¬ (t (n + 1)).Holds i k
  /-- No section is lost, and they take effect in the order in which they began. -/
  sections : ∀ k f n initial, Sectioned w t k f n → (t 0).datum k = some initial →
    ¬ (t n).Guarded k →
      (t n).datum k = some ((acquisitions w t k n).foldl (fun data a => f a data) initial)

section Runs

variable {arrivals : Nat → Option Mask}

theorem affects_succ (he : p.Explains m.view) (hsound : m.custody.Sound) (n k : Nat) :
    Affects w (m.timeline w arrivals n) (m.timeline w arrivals (n + 1)) k :=
  affects_of_use (custody_succ he n) (sound_timeline he hsound n) k

theorem ledger_timeline (he : p.Explains m.view) (hsound : m.custody.Sound) {f : Nat → δ → δ}
    {initial : δ} (hinitial : m.datum k = some initial) (hfree : ¬ m.Guarded k) (n : Nat)
    (hsectioned : Sectioned w (m.timeline w arrivals) k f n) :
    Ledger w (m.timeline w arrivals) k f initial n := by
  induction n with
  | zero => exact .free hfree hinitial
  | succ n ih =>
      exact (ih (hsectioned.mono (Nat.le_succ n))).succ (affects_succ he hsound n k) hsectioned

theorem excludes_of_explains (he : p.Explains m.view) (hsound : m.custody.Sound)
    (hfree : ∀ k, ¬ m.Guarded k) (w : World μ σ ν δ) (arrivals : Nat → Option Mask) :
    Excludes w (m.timeline w arrivals) where
  single := fun n => (sound_timeline he hsound n).single
  unique := fun n => (sound_timeline he hsound n).unique
  kept := by
    intro n i k hholds
    have haffects : Affects w (m.timeline w arrivals n) (m.timeline w arrivals (n + 1)) k :=
      affects_succ he hsound n k
    cases haffects with
    | spares _ _ _ hsame _ => exact .inl ((hsame i).mpr hholds)
    | takes _ _ hnone _ _ => exact absurd ⟨i, hholds⟩ hnone
    | changes _ _ _ _ hsame _ => exact .inl ((hsame i).mpr hholds)
    | frees _ hfrees hholder _ _ =>
        have hi := (sound_timeline he hsound n).unique i _ k hholds hholder
        exact .inr (asksFor_of_frees ((hfrees i).mpr hi))
  busy := by
    intro n i k next data hdatum hasks hguarded
    have harrive := delays_arrive ((m.timeline w arrivals n).step w) (arrivals n)
    exact harrive.core.trans (told_busy (sound_timeline he hsound n) hasks hdatum hguarded)
  tried := by
    intro n i k next data hdatum hasks hfree
    rcases told_locked (sound_timeline he hsound n) hasks hdatum hfree with ⟨htold, hholds⟩
    have harrive := delays_arrive ((m.timeline w arrivals n).step w) (arrivals n)
    refine ⟨harrive.core.trans htold, ?_⟩
    unfold Holds at hholds ⊢
    rw [← harrive.custody] at hholds
    exact hholds
  locked := by
    intro i k next data a b hdatum hasks hfirst
    have hmutex : ((m.timeline w arrivals a).datum k).isSome = (m.datum k).isSome :=
      isSome_datum_timeline he k a
    rw [hdatum] at hmutex
    rcases hfirst.so with ⟨state, response, htold⟩
    rcases exists_first (P := fun n => (m.timeline w arrivals n).TakesTurn i) hfirst.lt
      htold.takesTurn with ⟨a', hle, hnext⟩
    rcases attempts_of_asks he hasks hnext with ⟨hnone, hattempts⟩
    have hlt : a' < b := by
      refine Nat.lt_of_le_of_ne hle ?_
      rintro rfl
      have hphase := htold.2
      rw [hattempts.2] at hphase
      cases hphase
    exact ⟨a', hnext, hnone, acquires_of_attempts he hsound hmutex.symm hattempts
      ⟨hlt, hfirst.so, fun n hn => hfirst.least n (Nat.lt_trans hnext.lt hn)⟩⟩
  changed := by
    intro n k data hdatum
    have haffects : Affects w (m.timeline w arrivals n) (m.timeline w arrivals (n + 1)) k :=
      affects_succ he hsound n k
    cases haffects with
    | spares _ _ _ _ hsame => exact .inl (hsame.trans hdatum)
    | takes _ _ _ _ hsame => exact .inl (hsame.trans hdatum)
    | frees _ _ _ _ hsame => exact .inl (hsame.trans hdatum)
    | changes _ _ hchanges hholder _ hchanged =>
        rcases asksFor_of_changes hchanges with ⟨next, hasks⟩
        rw [hdatum] at hchanged
        exact .inr ⟨_, _, next, hasks, hholder, hchanged⟩
  begins := fun n k => (affects_succ he hsound n k).takes_iff
  ends := fun n i k =>
    (affects_succ he hsound n k).frees_iff (sound_timeline he hsound n) i
  sections := by
    intro k f n initial hsectioned hinitial hover
    cases ledger_timeline he hsound hinitial (hfree k) n hsectioned with
    | free _ hdatum => exact hdatum
    | held hunder => exact absurd ⟨_, (hunder.holder _).mpr rfl⟩ hover

end Runs

/--
On a machine that switches threads, whatever its threads do and whatever interrupts
arrive, at most one thread at a time has a guard of a mutex, and no section under a mutex
is lost.
-/
theorem excludes_timeline (w : World μ σ ν δ) (arrivals : Nat → Option Mask) (config : Config)
    (cpu : Cpu) (upcoming : List Mask) (mutexes : List δ) (memory : μ) (main : σ) :
    Excludes w
      ((create config cpu upcoming mutexes memory main : Machine μ σ ν δ).timeline w arrivals) := by
  refine excludes_of_explains (explains_create config cpu upcoming mutexes memory main)
    (sound_create config cpu upcoming mutexes memory main) ?_ w arrivals
  rintro k ⟨i, hmem⟩
  unfold Holds at hmem
  rw [locks_create] at hmem
  cases hmem

end Machine

/--
Two threads each add 1 to the data of mutex 0: they read it, yield, and write what comes of
what they read.
-/
def World.counts : World Unit (Nat × Int32) Unit where
  turn := fun _ (line, seen) response =>
    let seen :=
      match response with
      | .locked data => data
      | _ => seen
    { memory := ()
      state := (line + 1, seen)
      ask :=
        match line with
        | 0 => .call .init
        | 1 => .call (.spawn {} (.code (2, 0)))
        | 2 => .lock 0
        | 4 => .update 0 fun _ => seen + 1
        | 5 => .unlock 0
        | _ => .call .yield }

/-- Thread 2 yields once, since its first attempt falls into the section of thread 1. -/
example :
    let t := (Machine.create {} {} [] [40] () (0, 0)).timeline World.counts fun _ => none
    (t 16).phase.caller? = some (.locking 0 (3, 0)) ∧ (t 16).locksOf 1 = [0] ∧
      between (fun n => (t n).dealt 2) 16 30 = [.yield] ∧
        Machine.acquisitions World.counts t 0 45 = [9, 30] ∧ (t 45).datum 0 = some 42 := by
  decide +kernel

end Coop
