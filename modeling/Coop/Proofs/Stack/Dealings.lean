import Coop.Proofs.Recency
import Coop.Proofs.Stack.Stock

/-!
# Dealings with a pool

The users of a pool ask it for stacks, and return each of them once, or drop it.  While
they have a stack they may write to it.  Over every run of such dealings, whatever is
refused on the way, the counts of the pool are those of the run, and the bytes it counts
are those of the stacks that are cached or out.
-/

namespace Coop

/-- A pool, and the stacks that it handed out and did not take back. -/
structure Lending where
  pool : Pool
  held : List Stack := []
  /-- The stacks that somebody let go of without telling the pool. -/
  dropped : List Stack := []
  deriving DecidableEq, Repr

inductive Deal where
  | allocate (granted : Bool) (c : SizeClass)
  | allocateBytes (granted : Bool) (bytes : Nat)
  /-- The held stack with that number comes back, and has these contents by then. -/
  | release (g : Growth) (serial : Nat) (memory : Memory)
  | drop (serial : Nat)
  | trim
  deriving DecidableEq, Repr

def Deal.asks : Deal → Bool
  | allocate _ _ | allocateBytes _ _ => true
  | _ => false

namespace Lending

def create (budget : Option Nat) : Lending :=
  { pool := { budget } }

def lent (l : Lending) : List Stack :=
  l.held ++ l.dropped

/-- The stacks that are lent besides one that is held. -/
def lentBeside (l : Lending) (stack : Stack) : List Stack :=
  l.held.erase stack ++ l.dropped

def bytes (l : Lending) : Nat :=
  (l.lent.map Stack.size).sum

def heldAs (l : Lending) (serial : Nat) : Option Stack :=
  l.held.find? fun stack => stack.serial = serial

def handed? (l : Lending) : Deal → Option Stack
  | .allocate granted c => (l.pool.allocate granted c).1
  | .allocateBytes granted bytes => (l.pool.allocateBytes granted bytes).1.toOption
  | _ => none

/-- The stack that a deal returns, as it is by then. -/
def returned? (l : Lending) : Deal → Option Stack
  | .release _ serial memory => (l.heldAs serial).map fun stack => { stack with memory }
  | _ => none

/-- What a deal leaves.  Nobody can return or drop a stack that nobody holds. -/
def perform (l : Lending) : Deal → Lending
  | .allocate granted c =>
      let (stack, pool) := l.pool.allocate granted c
      { l with pool, held := stack.toList ++ l.held }
  | .allocateBytes granted bytes =>
      let (answer, pool) := l.pool.allocateBytes granted bytes
      { l with pool, held := answer.toOption.toList ++ l.held }
  | .release g serial memory =>
      match l.heldAs serial with
      | none => l
      | some stack =>
          { l with pool := l.pool.release g { stack with memory }, held := l.held.erase stack }
  | .drop serial =>
      match l.heldAs serial with
      | none => l
      | some stack => { l with held := l.held.erase stack, dropped := stack :: l.dropped }
  | .trim => { l with pool := l.pool.trim }

end Lending

structure Dealing where
  earlier : Lending
  deal : Deal

namespace Dealing

def later (d : Dealing) : Lending :=
  d.earlier.perform d.deal

def handed? (d : Dealing) : Option Stack :=
  d.earlier.handed? d.deal

def returned? (d : Dealing) : Option Stack :=
  d.earlier.returned? d.deal

/-- The stack that was handed out, if it came from a cache. -/
def reused? (d : Dealing) : Option Stack :=
  d.handed?.filter fun stack => d.earlier.pool.stock.contains stack

end Dealing

namespace Lending

def handedOut (history : List Dealing) : List Stack :=
  history.filterMap Dealing.handed?

/-- The stacks that a history returned, each as it was when it came back, in that order. -/
def broughtBack (history : List Dealing) : List Stack :=
  history.filterMap Dealing.returned?

def reused (history : List Dealing) : List Stack :=
  history.filterMap Dealing.reused?

def run (l : Lending) : List Deal → List Dealing
  | [] => []
  | deal :: rest => ⟨l, deal⟩ :: (l.perform deal).run rest

def after (l : Lending) : List Deal → Lending
  | [] => l
  | deal :: rest => (l.perform deal).after rest

/-!
# Accounts of a run
-/

/-- The counts of a pool are those of its history, and its bytes those of its stacks. -/
structure Accounts (l : Lending) (budget : Option Nat) (history : List Dealing) : Prop where
  sorted : ∀ c, ∀ stack ∈ (l.pool.cache c).kept, stack.sizeClass = c
  reserved : l.pool.reserved = (l.lent.map Stack.size).sum + (l.pool.stock.map Stack.size).sum
  withinBudget : ∀ bound, budget = some bound → l.pool.reserved ≤ bound
  inUse : l.pool.inUse + (broughtBack history).length = (handedOut history).length
  deallocated : l.pool.deallocated = (broughtBack history).length
  allocated : l.pool.allocated + (reused history).length = (handedOut history).length
  outstanding : ((handedOut history).map Stack.serial).Perm
    ((broughtBack history ++ l.lent).map Stack.serial)
  /-- Each stack that came back was cached, or given back as its cache could not grow. -/
  takes : ∀ d ∈ history, ∀ g serial memory, d.deal = .release g serial memory →
    ∀ stack, d.returned? = some stack → d.earlier.pool.Takes g stack d.later.pool
  refuses : ∀ d ∈ history, d.deal.asks = true → d.handed? = none →
    d.later =
      { d.earlier with
        pool :=
          { d.earlier.pool with
            caches := d.later.pool.caches
            reserved := d.later.pool.reserved } }

/-!
# What one deal does
-/

inductive Goes (l : Lending) : Deal → Option Stack → Option Stack → Lending → Prop where
  | handed {deal : Deal} {granted : Bool} {c : SizeClass} {stack : Stack} {pool : Pool} :
      deal.asks = true → l.pool.Serves granted c (some stack) pool →
        Goes l deal (some stack) none { l with pool, held := stack :: l.held }
  | refused {deal : Deal} {granted : Bool} {c : SizeClass} {pool : Pool} :
      deal.asks = true → l.pool.Serves granted c none pool →
        Goes l deal none none { l with pool }
  | returned {g : Growth} {stack : Stack} {memory : Memory} :
      stack ∈ l.held →
        Goes l (.release g stack.serial memory) none (some { stack with memory })
          { l with pool := l.pool.release g { stack with memory }, held := l.held.erase stack }
  | dropped {stack : Stack} :
      stack ∈ l.held →
        Goes l (.drop stack.serial) none none
          { l with held := l.held.erase stack, dropped := stack :: l.dropped }
  | trimmed : Goes l .trim none none { l with pool := l.pool.trim }
  /-- No class is large enough, or nobody holds that stack. -/
  | void {deal : Deal} : Goes l deal none none l

variable {l l' : Lending} {deal : Deal} {given? back? : Option Stack} {stack : Stack}

theorem goes_allocate (l : Lending) (granted : Bool) (c : SizeClass) :
    l.Goes (.allocate granted c) (l.handed? (.allocate granted c)) none
      (l.perform (.allocate granted c)) := by
  have hserves := l.pool.serves_allocate granted c
  simp only [Lending.handed?, perform]
  generalize l.pool.allocate granted c = answer at hserves ⊢
  rcases answer with ⟨_ | stack, pool⟩
  · exact .refused rfl hserves
  · exact .handed rfl hserves

theorem goes_allocateBytes (l : Lending) (granted : Bool) (wanted : Nat) :
    l.Goes (.allocateBytes granted wanted) (l.handed? (.allocateBytes granted wanted)) none
      (l.perform (.allocateBytes granted wanted)) := by
  have hserves := l.pool.servesBytes_allocateBytes granted wanted
  simp only [Lending.handed?, perform]
  generalize l.pool.allocateBytes granted wanted = answer at hserves ⊢
  rcases answer with ⟨answer, pool⟩
  cases hserves with
  | tooLarge _ => exact .void
  | served _ hserves => exact .handed rfl hserves
  | refused _ hserves => exact .refused rfl hserves

theorem heldAs_eq_some {serial : Nat} (h : l.heldAs serial = some stack) :
    stack ∈ l.held ∧ stack.serial = serial := by
  have hserial := List.find?_some h
  exact ⟨List.mem_of_find?_eq_some h, of_decide_eq_true hserial⟩

theorem goes (l : Lending) (deal : Deal) :
    l.Goes deal (l.handed? deal) (l.returned? deal) (l.perform deal) := by
  cases deal with
  | allocate granted c => exact l.goes_allocate granted c
  | allocateBytes granted wanted => exact l.goes_allocateBytes granted wanted
  | release g serial memory =>
      simp only [Lending.handed?, Lending.returned?, perform]
      cases hheld : l.heldAs serial with
      | none => exact .void
      | some stack =>
          rcases heldAs_eq_some hheld with ⟨hmem, rfl⟩
          exact .returned hmem
  | drop serial =>
      simp only [Lending.handed?, Lending.returned?, perform]
      cases hheld : l.heldAs serial with
      | none => exact .void
      | some stack =>
          rcases heldAs_eq_some hheld with ⟨hmem, rfl⟩
          exact .dropped hmem
  | trim => exact .trimmed

/-!
# What every deal keeps
-/

structure Balances (l : Lending) (budget : Option Nat) (given back again : List Stack) : Prop where
  tracks : l.pool.Tracks l.lent
  lends : l.pool.Lends l.bytes
  budget : l.pool.budget = budget
  deallocated : l.pool.deallocated = back.length
  allocated : l.pool.allocated + again.length = given.length
  outstanding : (given.map Stack.serial).Perm ((back ++ l.lent).map Stack.serial)
  issued : ∀ stack ∈ given, stack.serial < l.pool.allocated
  latest : ∀ c, LatestFirst (l.pool.cache c).kept back.reverse

variable {budget : Option Nat} {given back again : List Stack}

theorem balances_create (budget : Option Nat) : (create budget).Balances budget [] [] [] where
  tracks :=
    { inUse := rfl
      distinct := List.nodup_nil
      issued := by simp [create, Pool.stock, lent, SizeClass.all, Pool.cache]
      sorted := fun c => by cases c <;> simp [create, Pool.cache]
      withinBudget := fun _ _ => Nat.zero_le _ }
  lends := rfl
  budget := rfl
  deallocated := rfl
  allocated := rfl
  outstanding := .nil
  issued := by simp
  latest := fun c => by cases c <;> exact .nil

theorem Balances.not_mem_kept (h : l.Balances budget given back again) (hstack : stack ∈ l.lent)
    {copy : Stack} (hcopy : copy.serial = stack.serial) (c : SizeClass) :
    copy ∉ (l.pool.cache c).kept := by
  intro hmem
  have hdistinct := h.tracks.distinct
  rw [List.map_append, List.nodup_append] at hdistinct
  exact hdistinct.2.2 _ (List.mem_map_of_mem (Pool.mem_stock hmem)) _
    (List.mem_map_of_mem hstack) hcopy

theorem Balances.handed (h : l.Balances budget given back again) {granted : Bool} {c : SizeClass}
    {pool : Pool} (hserves : l.pool.Serves granted c (some stack) pool) :
    Balances { l with pool, held := stack :: l.held } budget (given ++ [stack]) back
      (again ++ ((some stack).filter fun stack => l.pool.stock.contains stack).toList) := by
  have htracks := (h.tracks.serves hserves).1
  have hstack : stack.serial < pool.allocated :=
    htracks.issued _ (List.mem_map_of_mem (List.mem_append_right _ List.mem_cons_self))
  have hlends := h.lends.serves hserves
  have hfrom := h.tracks.allocated_of_serves hserves
  rcases hserves.frame with ⟨hbudget, hdeallocated⟩
  constructor
  case tracks => exact htracks
  case lends =>
    rw [Nat.add_comm] at hlends
    exact hlends
  case budget => exact hbudget.trans h.budget
  case deallocated => exact hdeallocated.trans h.deallocated
  case allocated =>
    have hallocated := h.allocated
    rcases hfrom with ⟨hcached, hcount⟩ | ⟨hcached, hcount⟩ <;>
      simp only [Option.filter_some, List.contains_iff_mem, hcached, reduceIte, List.length_append,
        Option.toList_some, Option.toList_none, List.length_singleton, List.length_nil] <;>
      omega
  case outstanding =>
    have hgiven := (List.perm_append_singleton stack given).map Stack.serial
    have hlent : ((back ++ stack :: l.lent).map Stack.serial).Perm
        (stack.serial :: (back ++ l.lent).map Stack.serial) := List.perm_middle.map Stack.serial
    exact hgiven.trans ((h.outstanding.cons stack.serial).trans hlent.symm)
  case issued =>
    intro other hother
    have hmono : l.pool.allocated ≤ pool.allocated := by
      rcases hfrom with ⟨-, hcount⟩ | ⟨-, hcount⟩ <;> omega
    rcases List.mem_append.mp hother with hold | hnew
    · exact Nat.lt_of_lt_of_le (h.issued other hold) hmono
    · rw [List.mem_singleton.mp hnew]
      exact hstack
  case latest => exact fun d => (h.latest d).of_suffix (hserves.kept_suffix d)

theorem Balances.trim (h : l.Balances budget given back again) :
    Balances { l with pool := l.pool.trim } budget given back again where
  tracks := h.tracks.trim
  lends := h.lends.trim
  budget := h.budget
  deallocated := h.deallocated
  allocated := h.allocated
  outstanding := h.outstanding
  issued := h.issued
  latest := fun c => by
    rw [Pool.cache_trim]
    exact .nil

theorem Balances.refused (h : l.Balances budget given back again) {granted : Bool} {c : SizeClass}
    {pool : Pool} (hserves : l.pool.Serves granted c none pool) :
    Balances { l with pool } budget given back again := by
  rcases hserves.eq_or_eq_trim with rfl | rfl
  · exact h
  · exact h.trim

theorem perm_lent (hheld : stack ∈ l.held) : l.lent.Perm (stack :: l.lentBeside stack) :=
  (List.perm_cons_erase hheld).append_right l.dropped

theorem Balances.dropped (h : l.Balances budget given back again) (hheld : stack ∈ l.held) :
    Balances { l with held := l.held.erase stack, dropped := stack :: l.dropped } budget given back
      again := by
  have hlent : l.lent.Perm (l.held.erase stack ++ stack :: l.dropped) :=
    (perm_lent hheld).trans List.perm_middle.symm
  exact
    { tracks := h.tracks.of_serials (hlent.map Stack.serial).symm
      lends := h.lends.trans (congrArg _ (hlent.map Stack.size).sum_eq)
      budget := h.budget
      deallocated := h.deallocated
      allocated := h.allocated
      outstanding := h.outstanding.trans ((hlent.append_left back).map Stack.serial)
      issued := h.issued
      latest := h.latest }

/-- The pool does not see what was written to a stack that is out. -/
theorem Balances.tracks_held (h : l.Balances budget given back again) (hheld : stack ∈ l.held)
    (memory : Memory) :
    l.pool.Tracks ({ stack with memory } :: l.lentBeside stack) := by
  apply h.tracks.of_serials
  show ((stack :: l.lentBeside stack).map Stack.serial).Perm _
  exact (perm_lent hheld).symm.map Stack.serial

theorem Balances.lends_held (h : l.Balances budget given back again) (hheld : stack ∈ l.held)
    (memory : Memory) :
    l.pool.Lends (({ stack with memory } :: l.lentBeside stack).map Stack.size).sum :=
  h.lends.trans (congrArg _ ((perm_lent hheld).map Stack.size).sum_eq)

theorem Balances.takes (h : l.Balances budget given back again) (hheld : stack ∈ l.held)
    (g : Growth) (memory : Memory) :
    l.pool.Takes g { stack with memory } (l.pool.release g { stack with memory }) := by
  have hle := (h.tracks_held hheld memory).le_of_mem (h.lends_held hheld memory)
    List.mem_cons_self
  exact Pool.takes_release hle.1 hle.2 g

/-- What comes back is the latest in its cache, if it is cached, and is passed over if not. -/
theorem Balances.latest_returned (h : l.Balances budget given back again) (hheld : stack ∈ l.held)
    (g : Growth) (memory : Memory) (c : SizeClass) :
    LatestFirst ((l.pool.release g { stack with memory }).cache c).kept
      (back ++ [{ stack with memory }]).reverse := by
  have htakes := h.takes hheld g memory
  have hserial : Stack.serial { stack with memory } = stack.serial := rfl
  have hnew := h.not_mem_kept (List.mem_append_left l.dropped hheld) hserial c
  rw [List.reverse_concat]
  by_cases hclass : c = stack.sizeClass
  · subst hclass
    rcases htakes.kept with ⟨room, -, hcache, -⟩ | ⟨-, hcache, -⟩
    · rw [hcache]
      exact .came hnew (h.latest _)
    · rw [hcache]
      exact .passed hnew (h.latest _)
  · rw [htakes.beside c hclass]
    exact .passed hnew (h.latest c)

theorem Balances.returned (h : l.Balances budget given back again) (hheld : stack ∈ l.held)
    (g : Growth) (memory : Memory) :
    Balances { l with pool := l.pool.release g { stack with memory }, held := l.held.erase stack }
      budget given (back ++ [{ stack with memory }]) again := by
  have htakes := h.takes hheld g memory
  have hlends := h.lends_held hheld memory
  rw [List.map_cons, List.sum_cons, Nat.add_comm] at hlends
  exact
    { tracks := (h.tracks_held hheld memory).release g
      lends := hlends.release g
      budget := htakes.budget.trans h.budget
      deallocated := by
        rw [htakes.deallocated, h.deallocated, List.length_append]
        rfl
      allocated := by
        rw [htakes.allocated]
        exact h.allocated
      outstanding := by
        refine h.outstanding.trans ((((perm_lent hheld).append_left back).map _).trans ?_)
        simp [lent, lentBeside]
      issued := by
        rw [htakes.allocated]
        exact h.issued
      latest := h.latest_returned hheld g memory }

theorem Balances.goes (h : l.Balances budget given back again)
    (hgoes : l.Goes deal given? back? l') :
    l'.Balances budget (given ++ given?.toList) (back ++ back?.toList)
      (again ++ (given?.filter fun stack => l.pool.stock.contains stack).toList) := by
  cases hgoes with
  | handed _ hserves =>
      rw [Option.toList_none, List.append_nil]
      exact h.handed hserves
  | returned hheld =>
      rw [Option.filter_none, Option.toList_none, List.append_nil, List.append_nil]
      exact h.returned hheld _ _
  | refused _ hserves => simpa using h.refused hserves
  | dropped hheld => simpa using h.dropped hheld
  | trimmed => simpa using h.trim
  | void => simpa using h

/-!
# Runs
-/

theorem Balances.run (h : l.Balances budget given back again) (deals : List Deal) :
    (l.after deals).Balances budget (given ++ handedOut (l.run deals))
      (back ++ broughtBack (l.run deals)) (again ++ reused (l.run deals)) := by
  induction deals generalizing l given back again with
  | nil =>
      simp only [Lending.run, handedOut, broughtBack, reused, List.filterMap_nil, List.append_nil]
      exact h
  | cons deal rest ih =>
      have hrest := ih (h.goes (l.goes deal))
      simp only [handedOut, broughtBack, reused, List.filterMap_eq_flatMap_toList, Lending.run,
        List.flatMap_cons, ← List.append_assoc] at hrest ⊢
      exact hrest

theorem balances_after (budget : Option Nat) (deals : List Deal) :
    ((create budget).after deals).Balances budget (handedOut ((create budget).run deals))
      (broughtBack ((create budget).run deals)) (reused ((create budget).run deals)) :=
  (balances_create budget).run deals

theorem exists_after_of_mem_run {deals : List Deal} {d : Dealing} (h : d ∈ l.run deals) :
    ∃ before, d.earlier = l.after before := by
  induction deals generalizing l with
  | nil => cases h
  | cons deal rest ih =>
      rcases List.mem_cons.mp h with rfl | hrest
      · exact ⟨[], rfl⟩
      · rcases ih hrest with ⟨before, hbefore⟩
        exact ⟨deal :: before, hbefore⟩

theorem Goes.release {g : Growth} {serial : Nat} {memory : Memory}
    (h : l.Goes (.release g serial memory) given? (some stack) l') :
    l'.pool = l.pool.release g stack ∧ ∃ lent ∈ l.held, stack = { lent with memory } := by
  cases h with
  | returned hheld => exact ⟨rfl, _, hheld, rfl⟩

theorem Goes.refuses (h : l.Goes deal none back? l') (hasks : deal.asks = true) :
    l' =
      { l with
        pool := { l.pool with caches := l'.pool.caches, reserved := l'.pool.reserved } } := by
  cases h with
  | refused _ hserves => rcases hserves.eq_or_eq_trim with rfl | rfl <;> rfl
  | void => rfl
  | returned _ => cases hasks
  | dropped _ => cases hasks
  | trimmed => cases hasks

theorem goes_of_dealing (d : Dealing) : d.earlier.Goes d.deal d.handed? d.returned? d.later :=
  goes d.earlier d.deal

theorem takes_of_mem_run {deals : List Deal} {d : Dealing} (hd : d ∈ (create budget).run deals)
    {g : Growth} {serial : Nat} {memory : Memory} (hdeal : d.deal = .release g serial memory)
    (hreturned : d.returned? = some stack) : d.earlier.pool.Takes g stack d.later.pool := by
  have hgoes := goes_of_dealing d
  rw [hdeal, hreturned] at hgoes
  rcases hgoes.release with ⟨hlater, lent, hheld, rfl⟩
  rcases exists_after_of_mem_run hd with ⟨before, hbefore⟩
  have hbalances := balances_after budget before
  rw [← hbefore] at hbalances
  rw [hlater]
  exact hbalances.takes hheld g memory

theorem refuses_of_asks {d : Dealing} (hasks : d.deal.asks = true) (hhanded : d.handed? = none) :
    d.later =
      { d.earlier with
        pool :=
          { d.earlier.pool with
            caches := d.later.pool.caches
            reserved := d.later.pool.reserved } } := by
  have hgoes := goes_of_dealing d
  rw [hhanded] at hgoes
  exact hgoes.refuses hasks

/--
Over every run of dealings with a new pool, whatever the allocator and the caches refuse:
its counts are those of the run, and what it holds is what is cached or out.
-/
theorem accounts_after (budget : Option Nat) (deals : List Deal) :
    ((create budget).after deals).Accounts budget ((create budget).run deals) := by
  have h := balances_after budget deals
  have hlength := h.outstanding.length_eq
  rw [List.length_map, List.length_map, List.length_append] at hlength
  have hinUse := h.tracks.inUse
  constructor
  case sorted => exact h.tracks.sorted
  case reserved =>
    rw [h.lends, Pool.cachedBytes_eq_sum, Nat.add_comm]
    rfl
  case withinBudget =>
    intro bound hbound
    exact h.tracks.withinBudget bound (h.budget.trans hbound)
  case inUse => omega
  case deallocated => exact h.deallocated
  case allocated => exact h.allocated
  case outstanding => exact h.outstanding
  case takes => exact fun d hd g serial memory hdeal stack => takes_of_mem_run hd hdeal
  case refuses => exact fun d _ => refuses_of_asks

end Lending
end Coop
