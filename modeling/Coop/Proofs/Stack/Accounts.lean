import Coop.Stack.Pool

/-!
# Accounts of the pool

Every byte that a pool holds is in a stack that is cached, or in one that it lent.
Handing out a stack and taking one back keep these accounts, whatever the caches
and the allocator do.
-/

namespace Coop

theorem Cache.bytes_cons (stack : Stack) (kept : List Stack) (room : Nat) :
    (⟨stack :: kept, room⟩ : Cache).bytes = stack.size + (⟨kept, room⟩ : Cache).bytes := rfl

namespace Pool

/-- The pool holds the stacks it has cached, and so many bytes in stacks it lent. -/
def Lends (p : Pool) (bytes : Nat) : Prop :=
  p.reserved = p.cachedBytes + bytes

structure Trimmed (p p' : Pool) : Prop where
  kept : ∀ c, p'.cache c = { p.cache c with kept := [] }
  reserved : p'.reserved + p.cachedBytes = p.reserved
  budget : p'.budget = p.budget
  allocated : p'.allocated = p.allocated
  deallocated : p'.deallocated = p.deallocated
  inUse : p'.inUse = p.inUse

inductive Serves (p : Pool) (granted : Bool) (c : SizeClass) : Option Stack → Pool → Prop where
  | reused {stack : Stack} {rest : List Stack} :
      (p.cache c).kept = stack :: rest →
        Serves p granted c (some stack)
          { p.setCache c { p.cache c with kept := rest } with inUse := p.inUse + 1 }
  | fresh :
      (p.cache c).kept = [] → (p.makeRoom c.size).fits c.size = true → granted = true →
        Serves p granted c (some ((p.makeRoom c.size).grant c).1) ((p.makeRoom c.size).grant c).2
  | refused :
      (p.cache c).kept = [] → ((p.makeRoom c.size).fits c.size && granted) = false →
        Serves p granted c none (p.makeRoom c.size)

inductive ServesBytes (p : Pool) (granted : Bool) (wanted : Nat) :
    Except Shortage Stack → Pool → Prop where
  | tooLarge :
      SizeClass.holding? wanted = none →
        ServesBytes p granted wanted (.error (.stackTooLarge wanted)) p
  | served {c : SizeClass} {stack : Stack} {p' : Pool} :
      SizeClass.holding? wanted = some c → p.Serves granted c (some stack) p' →
        ServesBytes p granted wanted (.ok stack) p'
  | refused {c : SizeClass} {p' : Pool} :
      SizeClass.holding? wanted = some c → p.Serves granted c none p' →
        ServesBytes p granted wanted (.error (.stack wanted)) p'

variable {p p' : Pool} {bytes wanted : Nat} {granted : Bool} {c : SizeClass} {stack : Stack}
  {cause : Shortage}

/-!
# Bytes of the caches
-/

theorem toList_caches (p : Pool) : p.caches.toList = SizeClass.all.map p.cache := by
  rcases p with ⟨budget, ⟨⟨caches⟩, hsize⟩, allocated, deallocated, inUse, reserved⟩
  match caches, hsize with
  | [_, _, _, _, _], _ => rfl

theorem cachedBytes_eq (p : Pool) :
    p.cachedBytes = (p.cache .tiny).bytes + (p.cache .small).bytes + (p.cache .medium).bytes +
      (p.cache .large).bytes + (p.cache .extraLarge).bytes := by
  rw [cachedBytes, toList_caches]
  simp [SizeClass.all, Nat.add_assoc]

theorem cachedBytes_setCache (p : Pool) (c : SizeClass) (cache : Cache) :
    (p.setCache c cache).cachedBytes + (p.cache c).bytes = p.cachedBytes + cache.bytes := by
  rw [cachedBytes_eq, cachedBytes_eq]
  cases c <;> simp [cache_setCache_of_ne] <;> omega

theorem cachedBytes_trim (p : Pool) : p.trim.cachedBytes = 0 := by
  rw [cachedBytes_eq]
  simp [Cache.bytes]

theorem trimmed_trim (h : p.cachedBytes ≤ p.reserved) : p.Trimmed p.trim where
  kept := cache_trim p
  reserved := Nat.sub_add_cancel h
  budget := rfl
  allocated := rfl
  deallocated := rfl
  inUse := rfl

theorem Lends.trim (h : p.Lends bytes) : p.trim.Lends bytes := by
  have hreserved : p.trim.reserved = p.reserved - p.cachedBytes := rfl
  unfold Lends at h ⊢
  rw [hreserved, cachedBytes_trim, h]
  omega

theorem makeRoom_of_fits (h : p.fits wanted = true) : p.makeRoom wanted = p :=
  if_pos h

theorem makeRoom_of_not_fits (h : ¬ p.fits wanted = true) : p.makeRoom wanted = p.trim :=
  if_neg h

theorem allocated_makeRoom (p : Pool) (wanted : Nat) :
    (p.makeRoom wanted).allocated = p.allocated := by
  unfold Pool.makeRoom
  split <;> rfl

theorem Lends.makeRoom (h : p.Lends bytes) (wanted : Nat) : (p.makeRoom wanted).Lends bytes := by
  unfold Pool.makeRoom
  split
  · exact h
  · exact h.trim

/-!
# Handing out
-/

theorem Lends.grant (h : p.Lends bytes) (c : SizeClass) :
    (p.grant c).2.Lends (bytes + (p.grant c).1.size) := by
  show p.reserved + c.size = p.cachedBytes + (bytes + c.size)
  unfold Lends at h
  omega

theorem Lends.reuse (h : p.Lends bytes) {c : SizeClass} {stack : Stack} {rest : List Stack}
    (hkept : (p.cache c).kept = stack :: rest) :
    Lends { p.setCache c { p.cache c with kept := rest } with inUse := p.inUse + 1 }
      (bytes + stack.size) := by
  have hcache : (p.cache c).bytes = stack.size + (⟨rest, (p.cache c).room⟩ : Cache).bytes := by
    rw [← Cache.bytes_cons, ← hkept]
  have hset := cachedBytes_setCache p c ⟨rest, (p.cache c).room⟩
  show p.reserved = (p.setCache c ⟨rest, (p.cache c).room⟩).cachedBytes + (bytes + stack.size)
  unfold Lends at h
  omega

theorem serves_allocate (p : Pool) (granted : Bool) (c : SizeClass) :
    p.Serves granted c (p.allocate granted c).1 (p.allocate granted c).2 := by
  unfold Pool.allocate
  cases hkept : (p.cache c).kept with
  | cons stack rest => exact .reused hkept
  | nil =>
      simp only
      cases hfits : (p.makeRoom c.size).fits c.size && granted with
      | false => exact .refused hkept hfits
      | true =>
          rcases Bool.and_eq_true_iff.mp hfits with ⟨hroom, hgranted⟩
          exact .fresh hkept hroom hgranted

theorem servesBytes_allocateBytes (p : Pool) (granted : Bool) (wanted : Nat) :
    p.ServesBytes granted wanted (p.allocateBytes granted wanted).1
      (p.allocateBytes granted wanted).2 := by
  unfold Pool.allocateBytes
  cases hclass : SizeClass.holding? wanted with
  | none => exact .tooLarge hclass
  | some c =>
      have hserves := p.serves_allocate granted c
      simp only
      generalize p.allocate granted c = answer at hserves ⊢
      rcases answer with ⟨_ | stack, p'⟩
      · exact .refused hclass hserves
      · exact .served hclass hserves

theorem Lends.serves (h : p.Lends bytes) (hserves : p.Serves granted c (some stack) p') :
    p'.Lends (bytes + stack.size) := by
  cases hserves with
  | reused hkept => exact h.reuse hkept
  | fresh _ _ _ => exact (h.makeRoom c.size).grant c

theorem Serves.eq_or_eq_trim (h : p.Serves granted c none p') : p' = p ∨ p' = p.trim := by
  cases h with
  | refused _ _ =>
      unfold Pool.makeRoom
      split
      · exact Or.inl rfl
      · exact Or.inr rfl

theorem Serves.frame {answer : Option Stack} (h : p.Serves granted c answer p') :
    p'.budget = p.budget ∧ p'.deallocated = p.deallocated := by
  have hroom : (p.makeRoom c.size).budget = p.budget ∧
      (p.makeRoom c.size).deallocated = p.deallocated := by
    unfold Pool.makeRoom
    split <;> exact ⟨rfl, rfl⟩
  cases h with
  | reused _ => exact ⟨rfl, rfl⟩
  | fresh _ _ _ => exact hroom
  | refused _ _ => exact hroom

theorem Lends.allocateBytes (h : p.Lends bytes)
    (hstack : (p.allocateBytes granted wanted).1 = .ok stack) :
    (p.allocateBytes granted wanted).2.Lends (bytes + stack.size) := by
  have hserves := p.servesBytes_allocateBytes granted wanted
  rw [hstack] at hserves
  cases hserves with
  | served _ hserves => exact h.serves hserves

theorem snd_allocateBytes_of_error (h : (p.allocateBytes granted wanted).1 = .error cause) :
    (p.allocateBytes granted wanted).2 = p ∨
      cause = .stack wanted ∧ (p.allocateBytes granted wanted).2 = p.trim := by
  have hserves := p.servesBytes_allocateBytes granted wanted
  rw [h] at hserves
  generalize (p.allocateBytes granted wanted).2 = p' at hserves ⊢
  cases hserves with
  | tooLarge _ => exact Or.inl rfl
  | refused _ hserves => exact hserves.eq_or_eq_trim.imp_right fun htrim => ⟨rfl, htrim⟩

theorem Lends.allocateBytes_of_error (h : p.Lends bytes)
    (hcause : (p.allocateBytes granted wanted).1 = .error cause) :
    (p.allocateBytes granted wanted).2.Lends bytes := by
  rcases snd_allocateBytes_of_error hcause with hsame | ⟨-, htrim⟩
  · rw [hsame]
    exact h
  · rw [htrim]
    exact h.trim

theorem Lends.cachedBytes_le (h : p.Lends bytes) : p.cachedBytes ≤ p.reserved := by
  unfold Lends at h
  omega

/-!
# Taking back
-/

theorem Lends.release {stack : Stack} (h : p.Lends (bytes + stack.size)) (g : Growth) :
    (p.release g stack).Lends bytes := by
  unfold Pool.release
  cases hroom : g.reserve (p.cache stack.sizeClass).kept.length
    (p.cache stack.sizeClass).room 1 with
  | none =>
      simp only [hroom]
      show p.reserved - stack.size = p.cachedBytes + bytes
      unfold Lends at h
      omega
  | some room =>
      have hset := cachedBytes_setCache p stack.sizeClass
        ⟨stack :: (p.cache stack.sizeClass).kept, room⟩
      have hcons : (⟨stack :: (p.cache stack.sizeClass).kept, room⟩ : Cache).bytes =
          stack.size + (p.cache stack.sizeClass).bytes := rfl
      simp only [hroom]
      show p.reserved = (p.setCache stack.sizeClass
        ⟨stack :: (p.cache stack.sizeClass).kept, room⟩).cachedBytes + bytes
      unfold Lends at h
      omega

end Pool

end Coop
