import Mathlib.Algebra.BigOperators.Group.List.Basic
import Mathlib.Algebra.GroupWithZero.Nat
import Mathlib.Data.List.Infix
import Mathlib.Data.List.Nodup
import Coop.Proofs.Stack.Accounts

/-!
# The stock of a pool

Beside the bytes of its stacks, a pool keeps track of the stacks themselves.  Each
stack has a serial number of its own, and at any time it is in the cache of its
class, or lent, or back with the allocator.  The stock is what is in the caches.
-/

namespace Coop

structure SizeClass.Fits (c : SizeClass) (bytes : Nat) : Prop where
  holds : bytes ≤ c.size
  smallest : ∀ d : SizeClass, bytes ≤ d.size → c.size ≤ d.size

theorem SizeClass.fits_of_holding? {c : SizeClass} {bytes : Nat} (h : holding? bytes = some c) :
    c.Fits bytes :=
  ⟨le_size_of_holding? h, fun _ => size_le_of_holding? h⟩

theorem SizeClass.size_le_extraLarge (c : SizeClass) : c.size ≤ extraLarge.size := by
  cases c <;> decide

theorem SizeClass.Fits.size_eq {c d : SizeClass} {bytes : Nat} (h : c.Fits bytes)
    (h' : d.Fits bytes) : c.size = d.size :=
  Nat.le_antisymm (h.smallest d h'.holds) (h'.smallest c h.holds)

theorem SizeClass.Fits.holding? {c : SizeClass} {bytes : Nat} (h : c.Fits bytes) :
    holding? bytes = some c := by
  have hinj : ∀ d : SizeClass, d.size = c.size → d = c := by
    intro d
    cases c <;> cases d <;> decide
  cases hclass : SizeClass.holding? bytes with
  | none =>
      have hlt := holding?_eq_none_iff.mp hclass
      have hle := c.size_le_extraLarge
      exact absurd h.holds (by omega)
  | some d => rw [hinj d ((fits_of_holding? hclass).size_eq h)]

namespace Pool

def stock (p : Pool) : List Stack :=
  SizeClass.all.flatMap fun c => (p.cache c).kept

def stockBeside (p : Pool) (c : SizeClass) : List Stack :=
  (SizeClass.all.erase c).flatMap fun d => (p.cache d).kept

structure Tracks (p : Pool) (lent : List Stack) : Prop where
  inUse : p.inUse = lent.length
  distinct : ((p.stock ++ lent).map Stack.serial).Nodup
  issued : ∀ serial ∈ (p.stock ++ lent).map Stack.serial, serial < p.allocated
  sorted : ∀ c, ∀ stack ∈ (p.cache c).kept, stack.sizeClass = c
  withinBudget : ∀ budget, p.budget = some budget → p.reserved ≤ budget

/--
The pool took back a stack, and nothing else: it is on top of the cache of its class,
or it went to the allocator because that cache could not grow.
-/
structure Takes (p : Pool) (g : Growth) (stack : Stack) (p' : Pool) : Prop where
  inUse : p'.inUse + 1 = p.inUse
  deallocated : p'.deallocated = p.deallocated + 1
  allocated : p'.allocated = p.allocated
  budget : p'.budget = p.budget
  beside : ∀ c, c ≠ stack.sizeClass → p'.cache c = p.cache c
  kept :
    (∃ room, g.reserve (p.cache stack.sizeClass).kept.length (p.cache stack.sizeClass).room 1 =
        some room ∧ p'.cache stack.sizeClass = ⟨stack :: (p.cache stack.sizeClass).kept, room⟩ ∧
          p'.reserved = p.reserved) ∨
      g.reserve (p.cache stack.sizeClass).kept.length (p.cache stack.sizeClass).room 1 = none ∧
        p'.cache stack.sizeClass = p.cache stack.sizeClass ∧
          p'.reserved + stack.size = p.reserved

def Settles (p : Pool) (g : Growth) (aside : Option Stack) (p' : Pool) : Prop :=
  match aside with
  | none => p' = p
  | some stack => p.Takes g stack p'

variable {p p' : Pool} {lent lent' : List Stack} {c : SizeClass} {stack : Stack}

/-!
# What is in the caches
-/

theorem stock_perm (p : Pool) (c : SizeClass) :
    p.stock.Perm ((p.cache c).kept ++ p.stockBeside c) :=
  (List.perm_cons_erase (SizeClass.mem_all c)).flatMap_right fun d => (p.cache d).kept

theorem mem_kept {rest : List Stack} (h : (p.cache c).kept = stack :: rest) :
    stack ∈ (p.cache c).kept := by
  rw [h]
  exact List.mem_cons_self

theorem mem_stock (h : stack ∈ (p.cache c).kept) : stack ∈ p.stock :=
  List.mem_flatMap.mpr ⟨c, SizeClass.mem_all c, h⟩

theorem stockBeside_setCache (p : Pool) (c : SizeClass) (cache : Cache) :
    (p.setCache c cache).stockBeside c = p.stockBeside c := by
  have hnodup : SizeClass.all.Nodup := by decide
  refine List.flatMap_congr fun d hd => ?_
  rw [cache_setCache_of_ne p cache ((hnodup.mem_erase_iff).mp hd).1]

theorem stock_setCache (p : Pool) (c : SizeClass) (cache : Cache) :
    (p.setCache c cache).stock.Perm (cache.kept ++ p.stockBeside c) := by
  have hperm := (p.setCache c cache).stock_perm c
  rwa [cache_setCache_same, stockBeside_setCache] at hperm

/-- What leaves one cache for another list, or comes from it, stays where all are listed. -/
theorem stock_setCache_append {cache : Cache}
    (h : (cache.kept ++ lent').Perm ((p.cache c).kept ++ lent)) :
    ((p.setCache c cache).stock ++ lent').Perm (p.stock ++ lent) := by
  have hbeside : ∀ kept others : List Stack,
      (kept ++ p.stockBeside c ++ others).Perm (p.stockBeside c ++ (kept ++ others)) := by
    intro kept others
    rw [← List.append_assoc]
    exact List.perm_append_comm.append_right others
  calc
    List.Perm _ (cache.kept ++ p.stockBeside c ++ lent') :=
      (p.stock_setCache c cache).append_right lent'
    List.Perm _ (p.stockBeside c ++ (cache.kept ++ lent')) := hbeside _ _
    List.Perm _ (p.stockBeside c ++ ((p.cache c).kept ++ lent)) := h.append_left _
    List.Perm _ ((p.cache c).kept ++ p.stockBeside c ++ lent) := (hbeside _ _).symm
    List.Perm _ (p.stock ++ lent) := (p.stock_perm c).symm.append_right lent

theorem stock_trim (p : Pool) : p.trim.stock = [] := by
  simp [stock, SizeClass.all]

theorem cachedBytes_eq_sum (p : Pool) : p.cachedBytes = (p.stock.map Stack.size).sum := by
  have hbytes : ∀ c : Cache, c.bytes = (c.kept.map Stack.size).sum := by
    rintro ⟨kept, room⟩
    induction kept with
    | nil => rfl
    | cons stack rest ih => rw [Cache.bytes_cons, ih, List.map_cons, List.sum_cons]
  rw [cachedBytes_eq]
  simp [stock, SizeClass.all, hbytes, Nat.add_assoc]

theorem sorted_setCache {cache : Cache} (h : ∀ d, ∀ stack ∈ (p.cache d).kept, stack.sizeClass = d)
    (hcache : ∀ stack ∈ cache.kept, stack.sizeClass = c) (d : SizeClass) :
    ∀ stack ∈ ((p.setCache c cache).cache d).kept, stack.sizeClass = d := by
  by_cases hd : d = c
  · rw [hd, cache_setCache_same]
    exact hcache
  · rw [cache_setCache_of_ne p cache hd]
    exact h d

/-!
# Handing out
-/

/-- Only the serial numbers of the lent stacks matter. -/
theorem Tracks.of_serials (h : p.Tracks lent)
    (hserials : (lent'.map Stack.serial).Perm (lent.map Stack.serial)) : p.Tracks lent' := by
  have hall : ((p.stock ++ lent').map Stack.serial).Perm ((p.stock ++ lent).map Stack.serial) := by
    rw [List.map_append, List.map_append]
    exact hserials.append_left _
  have hlength := hserials.length_eq
  rw [List.length_map, List.length_map] at hlength
  exact
    { inUse := h.inUse.trans hlength.symm
      distinct := hall.nodup_iff.mpr h.distinct
      issued := fun serial hserial => h.issued serial (hall.mem_iff.mp hserial)
      sorted := h.sorted
      withinBudget := h.withinBudget }

theorem Tracks.trim (h : p.Tracks lent) : p.trim.Tracks lent := by
  have hsublist : ((p.trim.stock ++ lent).map Stack.serial).Sublist
      ((p.stock ++ lent).map Stack.serial) := by
    rw [stock_trim, List.nil_append]
    exact (List.sublist_append_right _ _).map _
  exact
    { inUse := h.inUse
      distinct := h.distinct.sublist hsublist
      issued := fun serial hserial => h.issued serial (hsublist.subset hserial)
      sorted := by simp
      withinBudget := fun budget hbudget =>
        Nat.le_trans (Nat.sub_le _ _) (h.withinBudget budget hbudget) }

theorem Tracks.makeRoom (h : p.Tracks lent) (wanted : Nat) : (p.makeRoom wanted).Tracks lent := by
  unfold Pool.makeRoom
  split
  · exact h
  · exact h.trim

theorem Tracks.grant (h : p.Tracks lent) (hfits : p.fits c.size = true) :
    (p.grant c).2.Tracks ((p.grant c).1 :: lent) := by
  have hserials : ((p.stock ++ (p.grant c).1 :: lent).map Stack.serial).Perm
      (p.allocated :: (p.stock ++ lent).map Stack.serial) :=
    List.perm_middle.map Stack.serial
  have hfresh : p.allocated ∉ (p.stock ++ lent).map Stack.serial := fun hmem =>
    Nat.lt_irrefl _ (h.issued _ hmem)
  constructor
  · exact congrArg (· + 1) h.inUse
  · exact hserials.nodup_iff.mpr (List.nodup_cons.mpr ⟨hfresh, h.distinct⟩)
  · intro serial hserial
    rcases List.mem_cons.mp (hserials.mem_iff.mp hserial) with rfl | hold
    · exact Nat.lt_succ_self _
    · exact Nat.lt_succ_of_lt (h.issued serial hold)
  · exact h.sorted
  · intro budget hbudget
    have hbudget' : p.budget = some budget := hbudget
    rw [fits, hbudget'] at hfits
    exact of_decide_eq_true hfits

theorem Tracks.reuse (h : p.Tracks lent) {rest : List Stack}
    (hkept : (p.cache c).kept = stack :: rest) :
    Tracks { p.setCache c { p.cache c with kept := rest } with inUse := p.inUse + 1 }
      (stack :: lent) := by
  -- the stack goes from the caches to those that are lent
  have hall : ((p.setCache c { p.cache c with kept := rest }).stock ++ stack :: lent).Perm
      (p.stock ++ lent) := by
    refine stock_setCache_append ?_
    rw [hkept]
    exact List.perm_middle
  have hserials := hall.map Stack.serial
  constructor
  · exact congrArg (· + 1) h.inUse
  · exact hserials.nodup_iff.mpr h.distinct
  · intro serial hserial
    exact h.issued serial (hserials.mem_iff.mp hserial)
  · refine sorted_setCache h.sorted fun other hother => h.sorted c other ?_
    rw [hkept]
    exact List.mem_cons_of_mem _ hother
  · exact h.withinBudget

theorem Tracks.serves (h : p.Tracks lent) {granted : Bool}
    (hserves : p.Serves granted c (some stack) p') :
    p'.Tracks (stack :: lent) ∧ stack.sizeClass = c := by
  cases hserves with
  | reused hkept => exact ⟨h.reuse hkept, h.sorted c stack (mem_kept hkept)⟩
  | fresh _ hfits _ => exact ⟨(h.makeRoom c.size).grant hfits, rfl⟩

theorem Tracks.allocated_of_serves (h : p.Tracks lent) {granted : Bool}
    (hserves : p.Serves granted c (some stack) p') :
    stack ∈ p.stock ∧ p'.allocated = p.allocated ∨
      stack ∉ p.stock ∧ p'.allocated = p.allocated + 1 := by
  cases hserves with
  | reused hkept => exact Or.inl ⟨mem_stock (mem_kept hkept), rfl⟩
  | fresh _ _ _ =>
      have hroom := p.allocated_makeRoom c.size
      refine Or.inr ⟨fun hmem => ?_, congrArg (· + 1) hroom⟩
      have hissued := h.issued _ (List.mem_map_of_mem (List.mem_append_left lent hmem))
      exact Nat.lt_irrefl _ (hroom ▸ hissued)

/-- What is left in a cache is what was there, less what was given away. -/
theorem Serves.kept_suffix {granted : Bool} {answer : Option Stack}
    (h : p.Serves granted c answer p') (d : SizeClass) :
    (p'.cache d).kept <:+ (p.cache d).kept := by
  have hroom : ((p.makeRoom c.size).cache d).kept <:+ (p.cache d).kept := by
    unfold Pool.makeRoom
    split
    · exact List.suffix_refl _
    · rw [cache_trim]
      exact List.nil_suffix
  cases h with
  | reused hkept =>
      show ((p.setCache c _).cache d).kept <:+ _
      by_cases hd : d = c
      · rw [hd, cache_setCache_same, hkept]
        exact List.suffix_cons _ _
      · rw [cache_setCache_of_ne p _ hd]
  | fresh _ _ _ => exact hroom
  | refused _ _ => exact hroom

theorem Tracks.allocateBytes (h : p.Tracks lent) {granted : Bool} {wanted : Nat}
    (hstack : (p.allocateBytes granted wanted).1 = .ok stack) :
    (p.allocateBytes granted wanted).2.Tracks (stack :: lent) ∧
      SizeClass.holding? wanted = some stack.sizeClass := by
  have hserves := p.servesBytes_allocateBytes granted wanted
  rw [hstack] at hserves
  cases hserves with
  | served hclass hserves =>
      rcases h.serves hserves with ⟨htracks, hsized⟩
      rw [hsized]
      exact ⟨htracks, hclass⟩

theorem Tracks.allocateBytes_of_error (h : p.Tracks lent) {granted : Bool} {wanted : Nat}
    {cause : Shortage} (hcause : (p.allocateBytes granted wanted).1 = .error cause) :
    (p.allocateBytes granted wanted).2.Tracks lent := by
  rcases snd_allocateBytes_of_error hcause with hsame | ⟨-, htrim⟩
  · rw [hsame]
    exact h
  · rw [htrim]
    exact h.trim

theorem fits_iff (p : Pool) (bytes : Nat) :
    p.fits bytes = true ↔ ∀ budget, p.budget = some budget → p.reserved + bytes ≤ budget := by
  unfold fits
  cases p.budget <;> simp

/-- The budget decides once the caches were emptied, if that was of use. -/
theorem Lends.fits_makeRoom_iff {bytes : Nat} (h : p.Lends bytes) (wanted : Nat) :
    (p.makeRoom wanted).fits wanted = true ↔
      ∀ budget, p.budget = some budget → bytes + wanted ≤ budget := by
  by_cases hroom : p.fits wanted = true
  · rw [makeRoom_of_fits hroom]
    refine iff_of_true hroom ?_
    intro budget hbudget
    have hle := (p.fits_iff wanted).mp hroom budget hbudget
    unfold Lends at h
    omega
  · have hreserved : p.trim.reserved = bytes := by
      have htrim := h.trim
      unfold Lends at htrim
      rw [htrim, cachedBytes_trim, Nat.zero_add]
    rw [makeRoom_of_not_fits hroom, fits_iff, hreserved]
    exact Iff.rfl

theorem Lends.add_size_le {bytes : Nat} (h : p.Lends bytes) (hstack : stack ∈ p.stock) :
    bytes + stack.size ≤ p.reserved := by
  have hsize : stack.size ≤ p.cachedBytes := by
    rw [cachedBytes_eq_sum, ((List.perm_cons_erase hstack).map Stack.size).sum_eq, List.map_cons,
      List.sum_cons]
    exact Nat.le_add_right _ _
  unfold Lends at h
  omega

/--
Whether a stack can be handed out does not depend on the caches: a cached stack of the
class is within the budget already, and the others are given up for a fresh one.
-/
theorem Tracks.allocate_isSome_iff (h : p.Tracks lent) {bytes : Nat} (hlends : p.Lends bytes) :
    (p.allocate true c).1.isSome = true ↔
      ∀ budget, p.budget = some budget → bytes + c.size ≤ budget := by
  have hserves := p.serves_allocate true c
  generalize p.allocate true c = answer at hserves ⊢
  rcases answer with ⟨answer, p'⟩
  rw [← hlends.fits_makeRoom_iff]
  cases hserves with
  | @reused stack rest hkept =>
      have hle := hlends.add_size_le (mem_stock (mem_kept hkept))
      rw [Stack.size, h.sorted c stack (mem_kept hkept)] at hle
      refine iff_of_true rfl ((hlends.fits_makeRoom_iff c.size).mpr ?_)
      intro budget hbudget
      exact Nat.le_trans hle (h.withinBudget budget hbudget)
  | fresh _ hfits _ => exact iff_of_true rfl hfits
  | refused _ hrefused =>
      rw [Bool.and_true] at hrefused
      rw [hrefused]
      exact Iff.rfl

theorem Tracks.allocateBytes_of_holding? (h : p.Tracks lent) {bytes wanted : Nat}
    (hlends : p.Lends bytes) (hclass : SizeClass.holding? wanted = some c) :
    (p.allocateBytes true wanted).1 = .error (.stack wanted) ∧
        (∃ budget, p.budget = some budget ∧ budget < bytes + c.size) ∨
      (∃ stack, (p.allocateBytes true wanted).1 = .ok stack) ∧
        ∀ budget, p.budget = some budget → bytes + c.size ≤ budget := by
  have hiff := h.allocate_isSome_iff (c := c) hlends
  unfold Pool.allocateBytes
  rw [hclass]
  simp only
  rcases halloc : p.allocate true c with ⟨answer, pool⟩
  rw [halloc] at hiff
  cases answer with
  | none =>
      have hover : ¬ ∀ budget, p.budget = some budget → bytes + c.size ≤ budget := by
        rw [← hiff]
        exact Bool.false_ne_true
      simp only [not_forall, Nat.not_le, exists_prop] at hover
      exact Or.inl ⟨rfl, hover⟩
  | some stack => exact Or.inr ⟨⟨stack, rfl⟩, hiff.mp rfl⟩

theorem allocateBytes_frame (p : Pool) (granted : Bool) (wanted : Nat) :
    (p.allocateBytes granted wanted).2.budget = p.budget ∧
      (p.allocateBytes granted wanted).2.deallocated = p.deallocated := by
  have hserves := p.servesBytes_allocateBytes granted wanted
  generalize p.allocateBytes granted wanted = answer at hserves ⊢
  rcases answer with ⟨answer, p'⟩
  cases hserves with
  | tooLarge _ => exact ⟨rfl, rfl⟩
  | served _ hserves => exact hserves.frame
  | refused _ hserves => exact hserves.frame

/-!
# Taking back
-/

theorem Tracks.le_of_mem (h : p.Tracks lent) (hlends : p.Lends (lent.map Stack.size).sum)
    (hstack : stack ∈ lent) : 0 < p.inUse ∧ stack.size ≤ p.reserved := by
  have hperm := List.perm_cons_erase hstack
  have hlength := hperm.length_eq
  have hsize := (hperm.map Stack.size).sum_eq
  rw [List.length_cons] at hlength
  rw [List.map_cons, List.sum_cons] at hsize
  rw [Lends] at hlends
  have hinUse := h.inUse
  constructor <;> omega

theorem Tracks.release (h : p.Tracks (stack :: lent)) (g : Growth) :
    (p.release g stack).Tracks lent := by
  have hcount : p.inUse - 1 = lent.length := by
    rw [h.inUse]
    rfl
  unfold Pool.release
  cases hroom : g.reserve (p.cache stack.sizeClass).kept.length
    (p.cache stack.sizeClass).room 1 with
  | none =>
      simp only [hroom]
      have hsublist : ((p.stock ++ lent).map Stack.serial).Sublist
          ((p.stock ++ stack :: lent).map Stack.serial) :=
        ((List.sublist_cons_self stack lent).append_left p.stock).map _
      exact
        { inUse := hcount
          distinct := h.distinct.sublist hsublist
          issued := fun serial hserial => h.issued serial (hsublist.subset hserial)
          sorted := h.sorted
          withinBudget := fun budget hbudget =>
            Nat.le_trans (Nat.sub_le _ _) (h.withinBudget budget hbudget) }
  | some room =>
      simp only [hroom]
      have hall : ((p.setCache stack.sizeClass
          ⟨stack :: (p.cache stack.sizeClass).kept, room⟩).stock ++ lent).Perm
            (p.stock ++ stack :: lent) := stock_setCache_append List.perm_middle.symm
      have hserials := hall.map Stack.serial
      exact
        { inUse := hcount
          distinct := hserials.nodup_iff.mpr h.distinct
          issued := fun serial hserial => h.issued serial (hserials.mem_iff.mp hserial)
          sorted := by
            refine sorted_setCache h.sorted fun other hother => ?_
            rcases List.mem_cons.mp hother with rfl | hold
            · rfl
            · exact h.sorted _ other hold
          withinBudget := h.withinBudget }

theorem takes_release (hinUse : 0 < p.inUse) (hreserved : stack.size ≤ p.reserved) (g : Growth) :
    p.Takes g stack (p.release g stack) := by
  have hcount : p.inUse - 1 + 1 = p.inUse := Nat.sub_add_cancel hinUse
  unfold Pool.release
  cases hroom : g.reserve (p.cache stack.sizeClass).kept.length
    (p.cache stack.sizeClass).room 1 with
  | none =>
      simp only [hroom]
      exact
        { inUse := hcount
          deallocated := rfl
          allocated := rfl
          budget := rfl
          beside := fun _ _ => rfl
          kept := Or.inr ⟨hroom, rfl, Nat.sub_add_cancel hreserved⟩ }
  | some room =>
      simp only [hroom]
      exact
        { inUse := hcount
          deallocated := rfl
          allocated := rfl
          budget := rfl
          beside := fun _ hclass => cache_setCache_of_ne p _ hclass
          kept := Or.inl ⟨room, hroom, cache_setCache_same p _ _, rfl⟩ }

theorem release_frame (p : Pool) (g : Growth) (stack : Stack) :
    (p.release g stack).budget = p.budget ∧ (p.release g stack).inUse = p.inUse - 1 ∧
      (p.release g stack).deallocated = p.deallocated + 1 := by
  unfold Pool.release
  simp only
  split <;> exact ⟨rfl, rfl, rfl⟩

end Pool
end Coop
