import Std.Data.HashMap

/-! # Caches

A cache of values that are costly to build. A value is built at most once for a key that stays
bound: while it is being built the builder may use the cache itself, and a value that was bound in
the meantime wins over the one that was built. -/

namespace CilAssembler

/-- Values by key. -/
structure Cache (κ ν : Type) [BEq κ] [Hashable κ] where
  entries : Std.HashMap κ ν

namespace Cache

variable {κ ν ε : Type} [BEq κ] [Hashable κ]

/-- The cache without values. -/
def empty : Cache κ ν := ⟨∅⟩

/-- The number of values. -/
def size (c : Cache κ ν) : Nat :=
  c.entries.size

/-- Whether there are no values. -/
def isEmpty (c : Cache κ ν) : Bool :=
  c.entries.isEmpty

/-- The value of a key. -/
def get? (c : Cache κ ν) (key : κ) : Option ν :=
  c.entries[key]?

/-- Whether a key has a value. -/
def contains (c : Cache κ ν) (key : κ) : Bool :=
  c.entries.contains key

/-- Binds a key, and gives back the value it had. -/
def insert (c : Cache κ ν) (key : κ) (value : ν) : Option ν × Cache κ ν :=
  (c.get? key, ⟨c.entries.insert key value⟩)

/-- Unbinds a key, and gives back the value it had. -/
def erase (c : Cache κ ν) (key : κ) : Option ν × Cache κ ν :=
  (c.get? key, ⟨c.entries.erase key⟩)

/-- Binds a key that has no value; a value that is there stays. Gives back the value of the key. -/
def insertIfNew (c : Cache κ ν) (key : κ) (value : ν) : ν × Cache κ ν :=
  match c.get? key with
  | some bound => (bound, c)
  | none => (value, ⟨c.entries.insert key value⟩)

/-- What came of asking for a value: the value, or why it could not be built, and what the builder
reported if it ran. -/
structure Built (ε ν β : Type) where
  result : Except ε ν
  report : Option β

/-- The value of a key, built and bound if there is none. The builder runs only then, may use the
cache, and may fail; a failure binds nothing more than the builder did. -/
def getOrBuild {β : Type} (c : Cache κ ν) (key : κ)
    (build : Cache κ ν → (Except ε ν × β) × Cache κ ν) : Built ε ν β × Cache κ ν :=
  match c.get? key with
  | some value => (⟨.ok value, none⟩, c)
  | none =>
      match build c with
      | ((.error e, report), c) => (⟨.error e, some report⟩, c)
      | ((.ok value, report), c) =>
          let (bound, c) := c.insertIfNew key value
          (⟨.ok bound, some report⟩, c)

end Cache

end CilAssembler
