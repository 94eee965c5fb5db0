import Latch.Text.Word
import Latch.Toml.Line

/-!
# TOML documents

A document is a list of sections: the lines before the first header, and those below each header.
The entries of a section are put together first and then placed in the table of the document.

* `Section.ofLines` — cuts lines at their headers;
* `Entries.place?` — puts the table of a section where its header says;
* `Document.ofText?` — the table that a text stands for; `none` for a text that is not well-formed.
-/

namespace Latch.Toml

/-! ## Sections -/

/-- Where the entries of a section belong. -/
inductive Target where
  | top
  | table (path : List String)
  | item (path : List String)

structure Section where
  target : Target
  additions : List (List String × Value)

/-- Collects lines below a target; the additions of the first section are given in reverse. -/
def Section.ofLines (target : Target) (seen : List (List String × Value)) :
    List Line → List Section
  | [] => [⟨target, seen.reverse⟩]
  | .entry key value :: rest => ofLines target ((key, value) :: seen) rest
  | .header path :: rest => ⟨target, seen.reverse⟩ :: ofLines (.table path) [] rest
  | .itemHeader path :: rest => ⟨target, seen.reverse⟩ :: ofLines (.item path) [] rest

/-! ## Placing a section -/

/-- Changes the entries of the table that a header's path leads to up to its last part. Tables on
the way are made where they are missing; of an array of tables the last one is meant. -/
def within? (change : String → Entries → Option Entries) : List String → Entries → Option Entries
  | [], _ => none
  | [name], entries => change name entries
  | part :: next :: rest, entries =>
    let below := within? change (next :: rest)
    match entries.get? part with
    | none => (below []).map fun inner => entries ++ [(part, .table .implied inner)]
    | some (.table .braced _) => none
    | some (.table kind inner) => (below inner).map fun inner => entries.set part (.table kind inner)
    | some (.tables items) =>
      (Entries.changeLast? below items).map fun items => entries.set part (.tables items)
    | some _ => none

/-- Gives a table its own header; it must be new or only implied so far. -/
def defineTable? (additions : List (List String × Value)) (name : String) (entries : Entries) :
    Option Entries :=
  match entries.get? name with
  | none => (addAll? additions []).map fun inner => entries ++ [(name, .table .headed inner)]
  | some (.table .implied inner) =>
    (addAll? additions inner).map fun inner => entries.set name (.table .headed inner)
  | some _ => none

/-- Adds a table to an array of tables, which may be new. -/
def defineItem? (additions : List (List String × Value)) (name : String) (entries : Entries) :
    Option Entries :=
  match entries.get? name with
  | none => (addAll? additions []).map fun inner => entries ++ [(name, .tables [inner])]
  | some (.tables items) =>
    (addAll? additions []).map fun inner => entries.set name (.tables (items ++ [inner]))
  | some _ => none

def Section.place? (s : Section) (entries : Entries) : Option Entries :=
  match s.target with
  | .top => addAll? s.additions entries
  | .table path => within? (defineTable? s.additions) path entries
  | .item path => within? (defineItem? s.additions) path entries

namespace Document

/-- The table that lines stand for. -/
def ofLines? (lines : List Line) : Option Entries :=
  (Section.ofLines .top [] lines).foldlM (fun entries s => s.place? entries) []

/-- Reads a text. -/
def ofText? (text : String) : Option Entries := do
  ofLines? (← lines? (dropByteOrderMark text.toList))

end Document

end Latch.Toml
