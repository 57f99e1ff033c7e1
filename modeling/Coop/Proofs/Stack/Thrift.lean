import Coop.Proofs.Stack.Dealings

/-!
# Thrift

A pool refuses only what its budget forbids, counting the stacks that are out and no
other.  It hands out again what came back last, before it asks for more memory, and it
gives up its caches for that memory only when the budget does not admit both.
-/

namespace Coop
namespace Pool

def Exceeds (p : Pool) (bytes : Nat) : Prop :=
  ∃ budget, p.budget = some budget ∧ budget < p.reserved + bytes

/-- A request left nothing in the caches, and what it got, if anything, was in none. -/
structure Empties (p : Pool) (answer : Option Stack) (p' : Pool) : Prop where
  emptied : ∀ c, (p'.cache c).kept = []
  beside : ∀ stack ∈ p.stock, answer ≠ some stack

structure ServesSmallest (p : Pool) (granted : Bool) (wanted : Nat) : Prop where
  stackTooLarge_iff :
    (p.allocateBytes granted wanted).1 = .error (.stackTooLarge wanted) ↔ 262144 < wanted
  unchanged : 262144 < wanted → (p.allocateBytes granted wanted).2 = p
  exists_fits : wanted ≤ 262144 → ∃ c : SizeClass, c.Fits wanted
  ok_iff : ∀ c : SizeClass, c.Fits wanted → ∀ stack,
    (p.allocateBytes granted wanted).1 = .ok stack ↔ (p.allocate granted c).1 = some stack
  stack_iff : ∀ c : SizeClass, c.Fits wanted →
    ((p.allocateBytes granted wanted).1 = .error (.stack wanted) ↔ (p.allocate granted c).1 = none)
  leaves : ∀ c : SizeClass, c.Fits wanted →
    (p.allocateBytes granted wanted).2 = (p.allocate granted c).2

variable {p p' : Pool} {granted : Bool} {c : SizeClass} {answer : Option Stack} {stack : Stack}
  {rest : List Stack} {wanted : Nat}

theorem not_fits_iff : ¬ p.fits wanted = true ↔ p.Exceeds wanted := by
  simp only [fits_iff, Exceeds, not_forall, Nat.not_le, exists_prop]

theorem allocate_of_kept (h : (p.cache c).kept = stack :: rest) (granted : Bool) :
    p.allocate granted c =
      (some stack,
        { p.setCache c { p.cache c with kept := rest } with inUse := p.inUse + 1 }) := by
  unfold allocate
  rw [h]

/-- Who finds an empty cache leaves the others as they are, or empties them to make room. -/
theorem Serves.cache_of_nil (h : p.Serves granted c answer p') (hnil : (p.cache c).kept = [])
    (d : SizeClass) : p'.cache d = (p.makeRoom c.size).cache d := by
  cases h with
  | reused hkept => cases hnil.symm.trans hkept
  | fresh _ _ _ => rfl
  | refused _ _ => rfl

theorem Serves.eq_fresh (h : p.Serves granted c (some stack) p') (hnil : (p.cache c).kept = []) :
    stack = .fresh p.allocated c := by
  cases h with
  | reused hkept => cases hnil.symm.trans hkept
  | fresh _ _ _ => exact congrArg (Stack.fresh · c) (p.allocated_makeRoom c.size)

theorem Serves.eq_none_of_refused (h : p.Serves false c answer p') (hnil : (p.cache c).kept = []) :
    answer = none := by
  cases h with
  | reused hkept => cases hnil.symm.trans hkept
  | fresh _ _ hgranted => cases hgranted
  | refused _ _ => rfl

theorem allocateBytes_of_fits (p : Pool) (granted : Bool) (h : c.Fits wanted) :
    p.allocateBytes granted wanted =
      (((p.allocate granted c).1.elim (.error (.stack wanted)) .ok), (p.allocate granted c).2) := by
  unfold allocateBytes
  rw [h.holding?]
  simp only
  rcases p.allocate granted c with ⟨_ | stack, p'⟩ <;> rfl

theorem servesSmallest (p : Pool) (granted : Bool) (wanted : Nat) :
    p.ServesSmallest granted wanted := by
  have hlarge : SizeClass.holding? wanted = none ↔ 262144 < wanted :=
    SizeClass.holding?_eq_none_iff
  have htooLarge : 262144 < wanted →
      p.allocateBytes granted wanted = (.error (.stackTooLarge wanted), p) := by
    intro hlt
    unfold allocateBytes
    rw [hlarge.mpr hlt]
  have hfits : wanted ≤ 262144 → ∃ c : SizeClass, c.Fits wanted := by
    intro hle
    cases hclass : SizeClass.holding? wanted with
    | none => exact absurd (hlarge.mp hclass) (Nat.not_lt.mpr hle)
    | some c => exact ⟨c, SizeClass.fits_of_holding? hclass⟩
  constructor
  case stackTooLarge_iff =>
    refine ⟨fun herror => ?_, fun hlt => congrArg Prod.fst (htooLarge hlt)⟩
    by_contra hle
    rcases hfits (Nat.not_lt.mp hle) with ⟨c, hc⟩
    rw [p.allocateBytes_of_fits granted hc] at herror
    cases halloc : (p.allocate granted c).1 <;> simp [halloc] at herror
  case unchanged => exact fun hlt => congrArg Prod.snd (htooLarge hlt)
  case exists_fits => exact hfits
  case ok_iff =>
    intro c hc stack
    rw [p.allocateBytes_of_fits granted hc]
    cases (p.allocate granted c).1 <;> simp
  case stack_iff =>
    intro c hc
    rw [p.allocateBytes_of_fits granted hc]
    cases (p.allocate granted c).1 <;> simp
  case leaves => exact fun c hc => congrArg Prod.snd (p.allocateBytes_of_fits granted hc)

theorem Tracks.empties {lent : List Stack} (htracks : p.Tracks lent)
    (h : p.Serves granted c answer p') (hnil : (p.cache c).kept = [])
    (hexceeds : p.Exceeds c.size) : p.Empties answer p' where
  emptied := by
    intro d
    rw [h.cache_of_nil hnil, makeRoom_of_not_fits (not_fits_iff.mpr hexceeds), cache_trim]
  beside := by
    intro stack hmem hanswer
    subst hanswer
    have hissued := htracks.issued _ (List.mem_map_of_mem (List.mem_append_left lent hmem))
    rw [h.eq_fresh hnil] at hissued
    exact Nat.lt_irrefl _ hissued

theorem Tracks.empties_iff {lent : List Stack} (htracks : p.Tracks lent)
    (h : p.Serves granted c answer p') (hstock : p.stock ≠ []) :
    p.Empties answer p' ↔ (p.cache c).kept = [] ∧ p.Exceeds c.size := by
  constructor
  · intro hempties
    have hnil : (p.cache c).kept = [] := by
      cases h with
      | reused hkept => exact absurd rfl (hempties.beside _ (mem_stock (mem_kept hkept)))
      | fresh hnil _ _ => exact hnil
      | refused hnil _ => exact hnil
    refine ⟨hnil, not_fits_iff.mp fun hfits => ?_⟩
    -- within the budget all that was cached would still be there
    rcases List.exists_mem_of_ne_nil _ hstock with ⟨stack, hmem⟩
    rcases List.mem_flatMap.mp hmem with ⟨d, -, hd⟩
    have hemptied := hempties.emptied d
    rw [h.cache_of_nil hnil, makeRoom_of_fits hfits] at hemptied
    rw [hemptied] at hd
    exact List.not_mem_nil hd
  · intro hover
    exact htracks.empties h hover.1 hover.2

end Pool

namespace Lending

structure Thrifty (l : Lending) (limit : Option Nat) (history : List Dealing) : Prop where
  budget : l.pool.budget = limit
  /-- Only the budget and the stacks that are out decide. -/
  succeeds_iff : ∀ c, (l.pool.allocate true c).1.isSome = true ↔
    ∀ budget, limit = some budget → l.bytes + c.size ≤ budget
  reuses : ∀ granted c, (l.pool.cache c).kept ≠ [] → ∃ stack rest,
    (broughtBack history).reverse.find? (fun stack => (l.pool.cache c).kept.contains stack) =
        some stack ∧
      (l.pool.cache c).kept = stack :: rest ∧
        l.pool.allocate granted c =
          (some stack,
            { l.pool.setCache c { l.pool.cache c with kept := rest } with
              inUse := l.pool.inUse + 1 })
  fresh : ∀ granted c stack, (l.pool.cache c).kept = [] →
    (l.pool.allocate granted c).1 = some stack →
      stack = .fresh l.pool.allocated c ∧
        ∀ earlier ∈ handedOut history, earlier.serial ≠ stack.serial
  refused : ∀ c, (l.pool.cache c).kept = [] → (l.pool.allocate false c).1 = none
  empties : ∀ granted c, (l.pool.cache c).kept = [] → l.pool.Exceeds c.size →
    l.pool.Empties (l.pool.allocate granted c).1 (l.pool.allocate granted c).2
  keeps : ∀ granted c, (l.pool.cache c).kept = [] → ¬ l.pool.Exceeds c.size →
    ∀ d, (l.pool.allocate granted c).2.cache d = l.pool.cache d
  empties_iff : ∀ granted c, l.pool.stock ≠ [] →
    (l.pool.Empties (l.pool.allocate granted c).1 (l.pool.allocate granted c).2 ↔
      (l.pool.cache c).kept = [] ∧ l.pool.Exceeds c.size)
  bytes : ∀ granted wanted, l.pool.ServesSmallest granted wanted

variable {l : Lending} {budget : Option Nat} {given back again : List Stack}

/-- The stack that came back last of those in a cache is on top of it. -/
theorem Balances.latest_of_kept (h : l.Balances budget given back again) {c : SizeClass}
    {stack : Stack} {rest : List Stack} (hkept : (l.pool.cache c).kept = stack :: rest) :
    back.reverse.find? (fun stack => (l.pool.cache c).kept.contains stack) = some stack := by
  rw [(h.latest c).find?_eq_head? fun stack => List.contains_iff_mem, hkept, List.head?_cons]

/--
Whatever was asked of a new pool before, and refused or not, the next request is answered
as the budget, the stacks that are out and the cache of its class say.
-/
theorem thrifty_after (budget : Option Nat) (deals : List Deal) :
    ((create budget).after deals).Thrifty budget ((create budget).run deals) := by
  have h := balances_after budget deals
  generalize (create budget).after deals = l at h ⊢
  constructor
  case budget => exact h.budget
  case succeeds_iff =>
    intro c
    rw [← h.budget]
    exact h.tracks.allocate_isSome_iff h.lends
  case reuses =>
    intro granted c hne
    rcases List.exists_cons_of_ne_nil hne with ⟨stack, rest, hkept⟩
    exact ⟨stack, rest, h.latest_of_kept hkept, hkept, Pool.allocate_of_kept hkept granted⟩
  case fresh =>
    intro granted c stack hnil hstack
    have hserves := l.pool.serves_allocate granted c
    rw [hstack] at hserves
    have hfresh := hserves.eq_fresh hnil
    refine ⟨hfresh, fun earlier hearlier => ?_⟩
    rw [hfresh]
    exact Nat.ne_of_lt (h.issued earlier hearlier)
  case refused => exact fun c hnil => (l.pool.serves_allocate false c).eq_none_of_refused hnil
  case empties =>
    exact fun granted c hnil => h.tracks.empties (l.pool.serves_allocate granted c) hnil
  case keeps =>
    intro granted c hnil hexceeds d
    have hfits := not_not.mp fun hover => hexceeds (Pool.not_fits_iff.mp hover)
    rw [(l.pool.serves_allocate granted c).cache_of_nil hnil, Pool.makeRoom_of_fits hfits]
  case empties_iff =>
    exact fun granted c hstock => h.tracks.empties_iff (l.pool.serves_allocate granted c) hstock
  case bytes => exact l.pool.servesSmallest

/-- Two small stacks fill the budget.  Once they are back, a tiny one takes the room of both. -/
example :
    let l := (create (some 8192)).after
      [.allocate true .small, .allocate true .small, .release .doubling 0 .zero,
        .release .doubling 1 .zero]
    l.pool.reserved = 8192 ∧ (l.pool.allocate true .tiny).2.reserved = 1024 :=
  ⟨rfl, rfl⟩

end Lending
end Coop
