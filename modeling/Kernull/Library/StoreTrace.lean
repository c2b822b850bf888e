import Kernull.Library.ByteMemory

/-!
# Memory with the stores made to it

Next to the bytes, a traced memory records the stores in the order in which
they were made.  The stores that a program adds say all there is to say about
what it does to memory: which addresses it writes, also where the byte written
is the one that was there, and what every byte is afterwards.
-/

namespace Kernull.Library.StoreTrace

open Kernull.Library.ByteMemory

/-- An address and the byte stored there. -/
abbrev Store := Nat × BitVec 8

/-- The bytes and the stores made so far. -/
structure TracedMemory where
  memory : Memory
  stores : List Store

/-- Memory in which no store has been made. -/
def untouched (memory : Memory) : TracedMemory where
  memory := memory
  stores := []

/-- Store a byte. -/
def TracedMemory.store (traced : TracedMemory) (address : Nat)
    (byte : BitVec 8) : TracedMemory where
  memory := Function.update traced.memory address byte
  stores := traced.stores ++ [(address, byte)]

/-- Memory after a list of stores. -/
def applyStores (memory : Memory) (stores : List Store) : Memory :=
  stores.foldl (fun memory store => Function.update memory store.1 store.2)
    memory

/-- A byte that no store writes stays as it is. -/
theorem applyStores_of_unwritten
    (memory : Memory) {stores : List Store} {address : Nat}
    (unwritten : ∀ store ∈ stores, store.1 ≠ address) :
    applyStores memory stores address = memory address := by
  induction stores generalizing memory with
  | nil => rfl
  | cons store others inductionHypothesis =>
      have rest := inductionHypothesis
        (Function.update memory store.1 store.2)
        (fun other member => unwritten other (List.mem_cons_of_mem _ member))
      have different := unwritten store List.mem_cons_self
      exact rest.trans (Function.update_of_ne different.symm _ _)

/-- The given stores have been added, and nothing else has happened. -/
structure Stored
    (before after : TracedMemory) (added : List Store) : Prop where
  stores : after.stores = before.stores ++ added
  memory : after.memory = applyStores before.memory added

namespace Stored

variable {before middle after : TracedMemory} {added later : List Store}

theorem nothing (traced : TracedMemory) : Stored traced traced [] where
  stores := (List.append_nil _).symm
  memory := rfl

/-- One store. -/
theorem single (traced : TracedMemory) (address : Nat) (byte : BitVec 8) :
    Stored traced (traced.store address byte) [(address, byte)] where
  stores := rfl
  memory := rfl

theorem trans (first : Stored before middle added)
    (second : Stored middle after later) :
    Stored before after (added ++ later) where
  stores := by
    rw [second.stores, first.stores, List.append_assoc]
  memory := by
    rw [second.memory, first.memory, applyStores, applyStores, applyStores,
      List.foldl_append]

/-- The first of the stores have led to `middle`; the others follow. -/
theorem rest (whole : Stored before after (added ++ later))
    (first : Stored before middle added) : Stored middle after later where
  stores := by
    rw [whole.stores, first.stores, List.append_assoc]
  memory := by
    rw [whole.memory, first.memory, applyStores, applyStores, applyStores,
      List.foldl_append]

/-- A byte that none of the stores writes stays as it is. -/
theorem unwritten (stored : Stored before after added) {address : Nat}
    (apart : ∀ store ∈ added, store.1 ≠ address) :
    after.memory address = before.memory address := by
  rw [stored.memory]
  exact applyStores_of_unwritten before.memory apart

end Stored

end Kernull.Library.StoreTrace
