import Latch.Store.Basic

/-!
# Dumps

The records of a store in an order that depends on the records alone: by user, tenant and feature,
and for properties by name, texts by their bytes.
-/

namespace Latch

/-- `a` is `b` or comes before it. -/
def Key.le (a b : Key) : Bool :=
  if a.user ≠ b.user then ByteOrder.le a.user b.user
  else if a.tenant ≠ b.tenant then a.tenant ≤ b.tenant
  else ByteOrder.le a.feature b.feature

/-- The same for the names of properties. -/
def Key.leNamed (a b : Key × String) : Bool :=
  if a.1 ≠ b.1 then a.1.le b.1 else ByteOrder.le a.2 b.2

/-- What a store holds; a table that cannot be read is missing. -/
structure Dump where
  locks : Option (List (Key × Lock))
  properties : Option (List ((Key × String) × String))
deriving DecidableEq, Repr

namespace Store

/-- The records of a table, sorted by their keys. -/
def Table.sorted {κ α : Type} (le : κ → κ → Bool) (t : Table κ α) : List (κ × α) :=
  (t.rows.map fun row => (row.key, row.value)).mergeSort fun a b => le a.1 b.1

def dump (store : Store) : Dump :=
  if store.closed then ⟨none, none⟩
  else ⟨store.tables.locks.map (Table.sorted Key.le),
    store.tables.properties.map (Table.sorted Key.leNamed)⟩

end Store

end Latch
