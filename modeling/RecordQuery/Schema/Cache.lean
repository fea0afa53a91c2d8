import RecordQuery.Schema.Basic

/-!
# Caching schemas

Building a schema checks the whole registry, so a host keeps the schemas it has built. A cache has
at most one schema for each root and options. A schema is given out again as long as it was built
from a registry equal to the one at hand; otherwise it is built anew and takes the place of the
old one. A build that fails leaves the cache as it was.

Registries are large, so a cache may compare their **fingerprints** instead (`Cache.getBy`). Two
registries are then taken for equal when their fingerprints are.

Every schema that is built gets the next **serial number**, which tells whether two answers are one
schema or two equal ones.
-/

namespace RecordQuery

/-- A schema and its serial number. -/
structure Cache.Entry where
  /-- The schema. -/
  schema : Schema
  /-- How many schemas were built before it. -/
  serial : Nat
  deriving DecidableEq

/-- What a schema is kept for: its root and its options. -/
abbrev Cache.Key := String × Options

/-- What an entry is kept for. -/
def Cache.Entry.key (e : Cache.Entry) : Cache.Key := (e.schema.root, e.schema.options)

/-- Whether an entry is the one for a root and options. -/
def Cache.Entry.isFor (root : String) (options : Options) (e : Cache.Entry) : Bool :=
  e.key = (root, options)

/-- **The schemas built so far.** -/
structure Cache where
  /-- The schemas that are kept. -/
  entries : List Cache.Entry
  /-- How many schemas have been built. -/
  built : Nat
  /-- No two schemas are kept for the same root and options. -/
  distinct : (entries.map Cache.Entry.key).Nodup
  /-- A schema that is kept was built. -/
  serial_lt : ∀ e ∈ entries, e.serial < built
  deriving DecidableEq

namespace Cache

/-- The cache without schemas. -/
def empty : Cache := ⟨[], 0, List.nodup_nil, nofun⟩

instance : Inhabited Cache := ⟨empty⟩

/-- How many schemas are kept. -/
def size (c : Cache) : Nat := c.entries.length

/-- The entry for a root and options. -/
def find? (c : Cache) (root : String) (options : Options) : Option Entry :=
  c.entries.find? (·.isFor root options)

/-- The cache with those schemas only that pass a test. -/
def filter (c : Cache) (test : Entry → Bool) : Cache where
  entries := c.entries.filter test
  built := c.built
  distinct := c.distinct.sublist (List.filter_sublist.map _)
  serial_lt e he := c.serial_lt e (List.mem_filter.mp he).1

/-- The cache with one more schema, for a root and options that it has none for. -/
def add (c : Cache) (s : Schema) (hnew : ∀ e ∈ c.entries, e.key ≠ (s.root, s.options)) : Cache where
  entries := ⟨s, c.built⟩ :: c.entries
  built := c.built + 1
  distinct := by
    refine List.nodup_cons.mpr ⟨fun h => ?_, c.distinct⟩
    obtain ⟨e, he, hkey⟩ := List.mem_map.mp h
    exact hnew e he hkey
  serial_lt := List.forall_mem_cons.mpr
    ⟨Nat.lt_succ_self _, fun e he => Nat.lt_succ_of_lt (c.serial_lt e he)⟩

/-- Keeps a new schema, in the place of the one for the same root and options. -/
def keep (c : Cache) (s : Schema) : Entry × Cache :=
  let others := c.filter fun e => !e.isFor s.root s.options
  (⟨s, c.built⟩, others.add s fun e he => by simpa [Entry.isFor] using (List.mem_filter.mp he).2)

/-- Builds a schema and keeps it. -/
def rebuild (c : Cache) (r : Registry) (root : String) (options : Options) :
    Except SchemaError Entry × Cache :=
  match Schema.build r root options with
  | .error e => (.error e, c)
  | .ok s => (.ok (c.keep s).1, (c.keep s).2)

/-- **The schema for a registry, a root and options**, where registries with one
fingerprint count as equal. -/
def getBy {φ : Type} [DecidableEq φ] (fingerprint : Registry → φ) (c : Cache) (r : Registry)
    (root : String) (options : Options) : Except SchemaError Entry × Cache :=
  match c.find? root options with
  | some e =>
    if fingerprint e.schema.registry = fingerprint r then (.ok e, c) else c.rebuild r root options
  | none => c.rebuild r root options

/-- The schema for a registry, a root and options, where registries are compared themselves. -/
def get (c : Cache) (r : Registry) (root : String) (options : Options) :
    Except SchemaError Entry × Cache :=
  c.getBy id r root options

/-- **Drops the schemas of a root** and says how many they were. -/
def invalidate (c : Cache) (root : String) : Nat × Cache :=
  let kept := c.filter fun e => e.schema.root ≠ root
  (c.size - kept.size, kept)

/-- Drops every schema. -/
def clear (c : Cache) : Cache := ⟨[], c.built, List.nodup_nil, nofun⟩

end Cache
end RecordQuery
