/-!
# Metrics

A metric gives a value to some tokens of a file. The first value recorded for a token stays. Totals
count how many tokens have each value. Names and values keep the order in which they first came up,
so tables are lists of entries with distinct keys.
-/

namespace DocLint

/-- Entries with distinct keys, in the order in which the keys were first used. -/
abbrev Table (κ α : Type) := List (κ × α)

namespace Table

variable {κ α : Type} [BEq κ]

/-- Changes the entry of `key`, which is `start` if there is none yet. -/
def adjust (key : κ) (start : α) (change : α → α) : Table κ α → Table κ α
  | [] => [(key, change start)]
  | (k, a) :: rest =>
    if k == key then (k, change a) :: rest else (k, a) :: adjust key start change rest

/-- The entry of `key`. -/
def get? (table : Table κ α) (key : κ) : Option α := (table.find? (·.1 == key)).map (·.2)

/-- Adds an entry for `key` unless there is one. -/
def keep (key : κ) (value : α) (table : Table κ α) : Table κ α :=
  if table.any (·.1 == key) then table else table ++ [(key, value)]

end Table

/-- For each metric, the value of each token. -/
abbrev Metrics := Table String (Table Int String)

/-- For each metric, how many tokens have each value. -/
abbrev Totals := Table String (Table String Nat)

/-- Adds `count` tokens with a value to the totals of a metric. -/
def Totals.add (name value : String) (count : Nat) (totals : Totals) : Totals :=
  Table.adjust name [] (Table.adjust value 0 (· + count)) totals

namespace Metrics

/-- Records a value for a token; a token that has a value keeps it. -/
def record (position : Int) (name value : String) (metrics : Metrics) : Metrics :=
  Table.adjust name [] (Table.keep position value) metrics

/-- How many tokens have each value. -/
def totals (metrics : Metrics) : Totals :=
  metrics.map fun (name, values) =>
    (name, values.foldl (fun counts entry => Table.adjust entry.2 0 (· + 1) counts) [])

end Metrics

/-- The totals of several files together. -/
def Totals.merge (all : List Totals) : Totals :=
  all.foldl (fun merged totals =>
    totals.foldl (fun merged (name, counts) =>
      counts.foldl (fun merged (value, count) => Totals.add name value count merged) merged)
      merged) []

end DocLint
