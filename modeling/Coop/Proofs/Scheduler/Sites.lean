import Coop.Proofs.Scheduler.Balance
import Coop.Proofs.Scheduler.Lifetimes
import Coop.Proofs.Stack.Dealings

/-!
# Stacks as memory

A stack is memory that outlives its thread: it goes to a cache with all that was written to
it, and on to another thread.  Threads write to their stacks between two operations of the
scheduler, and others may have stacks from the same pool.  Still the stack of a live thread
is in no other place, so nothing but a write of that thread changes it.
-/

namespace Coop

open Thread (Block Handle Table)

structure Site (β : Type) where
  scheduler : Scheduler β
  held : List Stack := []
  /-- The stacks that others let go of without telling the pool. -/
  dropped : List Stack := []

namespace Site

variable {β : Type}

inductive Event (β : Type) where
  | request (request : Request β) (supply : Supply)
  | write (owner : Handle) (offset : Nat) (byte : UInt8)
  | deal (deal : Deal)

def create (config : Config) : Site β :=
  { scheduler := .create config }

def lending (site : Site β) : Lending :=
  ⟨site.scheduler.pool, site.held, site.dropped⟩

/-- The stacks that are not with a live thread, wherever they are. -/
def spare (site : Site β) : List Stack :=
  site.scheduler.pool.stock ++ (site.scheduler.graveyard.toList ++ site.lending.lent)

def undergo (site : Site β) : Event β → Site β
  | .request request supply =>
      { site with scheduler := (site.scheduler.perform supply request).scheduler }
  | .write owner offset byte =>
      { site with scheduler := site.scheduler.writeStack owner offset byte }
  | .deal deal =>
      let lending := site.lending.perform deal
      { scheduler := { site.scheduler with pool := lending.pool }
        held := lending.held
        dropped := lending.dropped }

def after (site : Site β) : List (Event β) → Site β
  | [] => site
  | event :: rest => (site.undergo event).after rest

theorem after_append (site : Site β) (events more : List (Event β)) :
    site.after (events ++ more) = (site.after events).after more := by
  induction events generalizing site with
  | nil => rfl
  | cons event rest ih => exact ih _

end Site

/-!
# Writing to a stack
-/

namespace Stack

def poke (s : Stack) (offset : Nat) (byte : UInt8) : Stack :=
  (s.poke? offset byte).getD s

theorem serial_poke (s : Stack) (offset : Nat) (byte : UInt8) :
    (s.poke offset byte).serial = s.serial := by
  unfold poke poke?
  split <;> rfl

/-- The word is the lowest eight bytes. -/
theorem word_poke_of_le (s : Stack) {offset : Nat} (byte : UInt8) (h : 8 ≤ offset) :
    (s.poke offset byte).word = s.word := by
  unfold poke poke?
  split
  · refine List.map_congr_left ?_
    intro i hi
    have hlt := List.mem_range.mp hi
    exact Memory.read_write_of_ne s.memory byte (by omega)
  · rfl

end Stack

namespace Thread

variable {β : Type} {t : Table β}

def Block.poke (b : Block β) (offset : Nat) (byte : UInt8) : Block β :=
  { b with stack := b.stack.map fun stack => stack.poke offset byte }

theorem Block.Coherent.poke {b : Block β} (h : b.Coherent) (offset : Nat) (byte : UInt8) :
    (b.poke offset byte).Coherent :=
  ⟨h.waiting, h.line, h.exitCode, h.attached, h.unjoined⟩

namespace Table

theorem toList_modify {slot : Nat} {b : Block β} (hget : t.get? slot = some b)
    (f : Block β → Block β) :
    (t.modify slot f).toList.Perm ((slot, f b) :: (t.remove slot).2.toList) := by
  apply toList_perm_cons
  · rw [get?_remove, if_pos rfl]
  · intro other
    rw [get?_modify, get?_remove, hget]
    by_cases hother : other = slot
    · simp only [hother, if_true]
      rfl
    · simp only [hother, if_false]

theorem serials_owned_poke {slot : Nat} {b : Block β} (hget : t.get? slot = some b) (offset : Nat)
    (byte : UInt8) :
    ((t.modify slot fun b => b.poke offset byte).owned.map Stack.serial).Perm
      (t.owned.map Stack.serial) := by
  have hbefore := (owned_remove hget).map Stack.serial
  have hafter : ((t.modify slot fun b => b.poke offset byte).owned.map Stack.serial).Perm
      (((b.poke offset byte).stack.toList ++ (t.remove slot).2.owned).map Stack.serial) :=
    ((toList_modify hget _).flatMap_right _).map Stack.serial
  have hsame : (b.poke offset byte).stack.toList.map Stack.serial =
      b.stack.toList.map Stack.serial := by
    unfold Block.poke
    cases b.stack with
    | none => rfl
    | some stack => exact congrArg (· :: []) (stack.serial_poke offset byte)
  rw [List.map_append, hsame, ← List.map_append] at hafter
  exact hafter.trans hbefore.symm

end Table
end Thread

namespace Scheduler

variable {β : Type} {s : Scheduler β} {o : Outline β} {h owner : Handle} {b : Block β}

theorem writeStack_of_lookup (hlookup : s.table.lookup owner = some b) (offset : Nat)
    (byte : UInt8) :
    s.writeStack owner offset byte =
      { s with table := s.table.modify owner.slot fun b => b.poke offset byte } := by
  unfold writeStack
  rw [hlookup]
  rfl

theorem writeStack_of_stale (hlookup : s.table.lookup owner = none) (offset : Nat)
    (byte : UInt8) : s.writeStack owner offset byte = s := by
  unfold writeStack
  rw [hlookup]

theorem lookup_writeStack (s : Scheduler β) (owner h : Handle) (offset : Nat) (byte : UInt8) :
    (s.writeStack owner offset byte).table.lookup h =
      if h = owner then (s.table.lookup h).map fun b => b.poke offset byte
      else s.table.lookup h := by
  cases hlookup : s.table.lookup owner with
  | none =>
      rw [writeStack_of_stale hlookup]
      by_cases howner : h = owner
      · rw [if_pos howner, howner, hlookup]
        rfl
      · rw [if_neg howner]
  | some b =>
      rw [writeStack_of_lookup hlookup,
        Table.lookup_modify (f := fun b => b.poke offset byte) (fun _ => rfl)]
      by_cases howner : h = owner
      · rw [if_pos howner, if_pos (by rw [howner])]
      · rw [if_neg howner]
        split
        · rename_i hslot
          rw [Table.lookup_eq_none_of_ne hlookup hslot howner]
          rfl
        · rfl

/-- A write leaves a sound scheduler sound, for nothing but the stack's bytes has changed. -/
theorem Shaped.poke (hs : s.Shaped o) (hlookup : s.table.lookup owner = some b) (offset : Nat)
    (byte : UInt8) :
    (s.writeStack owner offset byte).Shaped
      (o.modify owner.slot fun b => b.poke offset byte) := by
  have hget := (Table.lookup_eq_some_iff.mp (hs.1.lookup_of_lookup hlookup)).1
  rcases Option.isSome_iff_exists.mp (hs.isSome_current_of_resolves ⟨b, hlookup⟩) with
    ⟨cur, hcurrent⟩
  rw [writeStack_of_lookup hlookup]
  constructor
  · exact hs.1.modify owner.slot (fun _ => rfl) fun _ lane => by cases lane <;> rfl
  · exact hs.2.modify hget (fun _ => rfl) rfl rfl rfl
      ((hs.2.placed.coherent hget).poke offset byte) (hs.1.current.trans hcurrent)

end Scheduler

/-!
# Dealing with the pool
-/

namespace Lending

variable {l l' : Lending} {deal : Deal} {given? back? : Option Stack}

theorem Goes.tracks (h : l.Goes deal given? back? l') {others : List Stack}
    (htracks : l.pool.Tracks (others ++ l.lent)) : l'.pool.Tracks (others ++ l'.lent) := by
  cases h with
  | @handed _ granted c stack pool _ hserves =>
      exact (htracks.serves hserves).1.of_serials (List.perm_middle.map Stack.serial)
  | refused _ hserves =>
      rcases hserves.eq_or_eq_trim with rfl | rfl
      · exact htracks
      · exact htracks.trim
  | @returned g stack memory hheld =>
      have hlent : (others ++ l.lent).Perm (stack :: (others ++ l.lentBeside stack)) :=
        ((perm_lent hheld).append_left others).trans List.perm_middle
      have hreturned : l.pool.Tracks ({ stack with memory } :: (others ++ l.lentBeside stack)) :=
        htracks.of_serials (hlent.symm.map Stack.serial)
      exact hreturned.release g
  | @dropped stack hheld =>
      have hlent : l.lent.Perm (l.held.erase stack ++ stack :: l.dropped) :=
        (perm_lent hheld).trans List.perm_middle.symm
      exact htracks.of_serials ((hlent.symm.append_left others).map Stack.serial)
  | trimmed => exact htracks.trim
  | void => exact htracks

end Lending

/-!
# What every event keeps
-/

namespace Site

variable {β : Type} {config : Config} {site : Site β} {o : Outline β} {h h' : Handle}

/-- The scheduler is sound, and the pool keeps track of every stack that is out. -/
structure Ordered (config : Config) (site : Site β) (o : Outline β) : Prop where
  shaped : site.scheduler.Shaped o
  config_eq : site.scheduler.config = config
  tracks : o.pool.Tracks (o.out ++ site.lending.lent)

namespace Ordered

theorem create (config : Config) : (Site.create config : Site β).Ordered config (.create config)
    where
  shaped := Scheduler.shaped_create config
  config_eq := rfl
  tracks := by
    have haccounted : (Outline.create config : Outline β).Accounted :=
      Outline.accounted_create config
    have hlent : (Site.create config : Site β).lending.lent = [] := rfl
    rw [hlent, List.append_nil]
    exact haccounted.tracks

theorem perform (hsite : site.Ordered config o) (supply : Supply) (request : Request β) :
    ∃ o', (site.undergo (.request request supply)).Ordered config o' := by
  rcases hsite.shaped.perform supply request with ⟨o', hstep, hs'⟩
  refine ⟨o', hs', ?_, (hstep.handover hsite.shaped.2).tracks_append _ hsite.tracks⟩
  show (site.scheduler.perform supply request).scheduler.config = config
  rw [← hs'.1.config, hstep.sameLimits.config, hsite.shaped.1.config, hsite.config_eq]

theorem write (hsite : site.Ordered config o) (owner : Handle) (offset : Nat) (byte : UInt8) :
    ∃ o', (site.undergo (.write owner offset byte)).Ordered config o' := by
  cases hlookup : site.scheduler.table.lookup owner with
  | none =>
      refine ⟨o, ?_⟩
      rw [undergo, Scheduler.writeStack_of_stale hlookup]
      exact hsite
  | some b =>
      have hs := hsite.shaped
      have hget := (Table.lookup_eq_some_iff.mp (hs.1.lookup_of_lookup hlookup)).1
      have hlent : (site.undergo (.write owner offset byte)).lending.lent = site.lending.lent := rfl
      refine ⟨_, hs.poke hlookup offset byte, ?_, ?_⟩
      · show (site.scheduler.writeStack owner offset byte).config = config
        rw [Scheduler.writeStack_of_lookup hlookup]
        exact hsite.config_eq
      · refine hsite.tracks.of_serials ?_
        rw [hlent, Outline.out, Outline.out, List.map_append, List.map_append, List.map_append,
          List.map_append]
        exact ((Table.serials_owned_poke hget offset byte).append_right _).append_right _

theorem deal (hsite : site.Ordered config o) (deal : Deal) :
    ∃ o', (site.undergo (.deal deal)).Ordered config o' := by
  have hs := hsite.shaped
  have halike : o.Alike { o with pool := (site.lending.perform deal).pool } :=
    ⟨o.table.slotRoom, o.table.vacantRoom, _, o.graveyard, rfl⟩
  have htracks := hsite.tracks
  rw [hs.1.pool] at htracks
  exact ⟨{ o with pool := (site.lending.perform deal).pool },
    ⟨{ hs.1 with pool := rfl }, halike.sound hs.2⟩, hsite.config_eq,
    (site.lending.goes deal).tracks htracks⟩

theorem undergo (hsite : site.Ordered config o) (event : Event β) :
    ∃ o', (site.undergo event).Ordered config o' := by
  cases event with
  | request request supply => exact hsite.perform supply request
  | write owner offset byte => exact hsite.write owner offset byte
  | deal deal => exact hsite.deal deal

theorem after (hsite : site.Ordered config o) (events : List (Event β)) :
    ∃ o', (site.after events).Ordered config o' := by
  induction events generalizing site o with
  | nil => exact ⟨o, hsite⟩
  | cons event rest ih =>
      rcases hsite.undergo event with ⟨o', hnext⟩
      exact ih hnext

/-!
# Stacks of live threads
-/

/-- The stack of a live thread is neither with another thread nor anywhere else. -/
theorem serial_not_mem (hsite : site.Ordered config o) {slot : Nat} {b : Block β} {stack : Stack}
    (hget : site.scheduler.table.get? slot = some b) (hstack : b.stack = some stack) :
    stack.serial ∉
      ((site.scheduler.table.remove slot).2.owned ++ site.spare).map Stack.serial := by
  have hs := hsite.shaped
  have howned := Table.owned_remove hget
  rw [hstack] at howned
  have hout : (o.out ++ site.lending.lent).Perm
      (stack :: ((site.scheduler.table.remove slot).2.owned ++
        (site.scheduler.graveyard.toList ++ site.lending.lent))) := by
    have hperm := (hs.out_perm.trans (howned.append_right _)).append_right site.lending.lent
    simpa only [Option.toList_some, List.cons_append, List.nil_append, List.append_assoc] using
      hperm
  have hdistinct := hsite.tracks.distinct
  rw [hs.1.pool, ((hout.append_left _).map Stack.serial).nodup_iff,
    (List.perm_middle.map Stack.serial).nodup_iff, List.map_cons, List.nodup_cons] at hdistinct
  intro hmem
  refine hdistinct.1 ?_
  rw [List.mem_map] at hmem ⊢
  rcases hmem with ⟨other, hother, hserial⟩
  refine ⟨other, ?_, hserial⟩
  simp only [spare, List.mem_append] at hother ⊢
  tauto

theorem serial_inj (hsite : site.Ordered config o) {stack stack' : Stack}
    (hstack : site.scheduler.stack? h = .ok (some stack))
    (hstack' : site.scheduler.stack? h' = .ok (some stack'))
    (hserial : stack'.serial = stack.serial) : h' = h := by
  rcases Scheduler.stack?_eq_ok_iff.mp hstack with ⟨b, hlookup, hb⟩
  rcases Scheduler.stack?_eq_ok_iff.mp hstack' with ⟨b', hlookup', hb'⟩
  have hget := (Table.lookup_eq_some_iff.mp hlookup).1
  have hget' := (Table.lookup_eq_some_iff.mp hlookup').1
  by_cases hslot : h'.slot = h.slot
  · by_contra hne
    rw [Table.lookup_eq_none_of_ne hlookup hslot hne] at hlookup'
    cases hlookup'
  · -- the other stack is with one of the other threads
    have hremoved : (site.scheduler.table.remove h.slot).2.get? h'.slot = some b' := by
      rw [Table.get?_remove, if_neg hslot, hget']
    have howned : stack' ∈ (site.scheduler.table.remove h.slot).2.owned :=
      List.mem_flatMap.mpr ⟨_, Table.mem_toList.mpr hremoved, Option.mem_toList.mpr hb'⟩
    refine absurd ?_ (hsite.serial_not_mem hget hb)
    rw [← hserial]
    exact List.mem_map_of_mem (List.mem_append_left _ howned)

theorem serial_ne_of_mem_spare (hsite : site.Ordered config o) {stack other : Stack}
    (hstack : site.scheduler.stack? h = .ok (some stack)) (hother : other ∈ site.spare) :
    other.serial ≠ stack.serial := by
  intro hserial
  rcases Scheduler.stack?_eq_ok_iff.mp hstack with ⟨b, hlookup, hb⟩
  refine absurd ?_ (hsite.serial_not_mem (Table.lookup_eq_some_iff.mp hlookup).1 hb)
  rw [← hserial]
  exact List.mem_map_of_mem (List.mem_append_right _ hother)

theorem stack?_perform (hsite : site.Ordered config o) (supply : Supply) (request : Request β)
    {stack : Option Stack} (hstack : site.scheduler.stack? h = .ok stack)
    (hresolves : (site.scheduler.perform supply request).scheduler.Resolves h) :
    (site.scheduler.perform supply request).scheduler.stack? h = .ok stack := by
  rcases Scheduler.stack?_eq_ok_iff.mp hstack with ⟨b, hlookup, hb⟩
  rcases hresolves with ⟨b', hlookup'⟩
  have htreats := Scheduler.Shaped.treats (e := ⟨site.scheduler, request, supply,
    site.scheduler.perform supply request⟩) hsite.shaped rfl hlookup hlookup'
  have hsame : b'.stack = b.stack := congrArg Thread.Estate.stack htreats.estate
  exact Scheduler.stack?_eq_ok_iff.mpr ⟨b', hlookup', hsame.trans hb⟩

end Ordered

theorem stack?_writeStack_of_ne (s : Scheduler β) {owner : Handle} (offset : Nat) (byte : UInt8)
    (hne : h ≠ owner) : (s.writeStack owner offset byte).stack? h = s.stack? h := by
  have hlookup := s.lookup_writeStack owner h offset byte
  rw [if_neg hne] at hlookup
  unfold Scheduler.stack? Scheduler.resolve
  rw [hlookup]

theorem stack?_writeStack (s : Scheduler β) {owner : Handle} {stack : Stack} {offset : Nat}
    (byte : UInt8) (hstack : s.stack? owner = .ok (some stack)) (hoffset : offset < stack.size) :
    (s.writeStack owner offset byte).stack? owner =
      .ok (some { stack with memory := stack.memory.write offset byte }) := by
  rcases Scheduler.stack?_eq_ok_iff.mp hstack with ⟨b, hlookup, hb⟩
  have hlater := s.lookup_writeStack owner owner offset byte
  rw [if_pos rfl, hlookup] at hlater
  refine Scheduler.stack?_eq_ok_iff.mpr ⟨_, hlater, ?_⟩
  simp [Block.poke, Stack.poke, Stack.poke?, hb, hoffset]

end Site
end Coop
