import CMender.Mending.Cycles

/-! The mendfile on disk. Opening it for writing empties it, the text goes
through buffers, and only the last step of a successful write empties those; a
write that throws leaves the file with what the buffers happened to pass on. -/
namespace CMender
open Foundations

/-- What the buffers between a writer and its file have passed on when the writer
is given up: some beginning of the text, and nothing before a buffer is full. -/
structure Buffering where
  passedOn : List String → String
  passedOn_beginning : ∀ writes, ∃ rest, "".intercalate writes = passedOn writes ++ rest
  passedOn_short : ∀ writes, ("".intercalate writes).length < 8192 → passedOn writes = ""

/-- Buffers large enough to keep everything. -/
def Buffering.unbounded : Buffering where
  passedOn _ := ""
  passedOn_beginning writes := ⟨"".intercalate writes, by simp⟩
  passedOn_short _ _ := rfl

def mendingDisclaimerInMendfile : String :=
  "/* Mendfile\n" ++
  " * This header file  was automatically generated by the CMender tool.\n" ++
  " * It contains the necessary mends to fix the errors found by the diag-exporter tool.\n" ++
  " */"

/-- `new FileWriter(mendfile)`: whatever the file held is gone. -/
def openForWriting (_content : String) : String := ""

structure MendfileWrite where
  content : String
  failure : Option JavaException

/-- The texts handed to the writer up to the end or the failure. -/
def mendfileWrites (noDisclaimer : Bool) (definitions : List Definition) : List String :=
  (if noDisclaimer then [] else [mendingDisclaimerInMendfile, "\n"]) ++
    definitions.flatMap fun definition => [definition.text, "\n", "\n"]

def writeMendfile (buffering : Buffering) (order : IterationOrder) (noDisclaimer : Bool)
    (table : MendingTable) (content : String) : MendfileWrite :=
  let opened := openForWriting content
  let written := table.writeSymbolDecls order
  let writes := mendfileWrites noDisclaimer written.definitions
  match written.failure with
  | none => ⟨opened ++ "".intercalate writes, none⟩
  | some error => ⟨opened ++ buffering.passedOn writes, some error⟩

namespace MendingTable
variable {table : MendingTable} {order : IterationOrder}

/-- The write fails before the first definition: the graph has a cycle, or a
dependency is not a key of it. -/
def FailsInGraph (table : MendingTable) (order : IterationOrder) : Prop :=
  (∃ error, table.buildDependencyGraph = .error error) ∨
    (table.writeSymbolDecls order).failure = some circularDependency

theorem FailsInGraph.written (fails : table.FailsInGraph order) :
    (table.writeSymbolDecls order).definitions = [] ∧
      ∃ error, (table.writeSymbolDecls order).failure = some error := by
  cases built : table.buildDependencyGraph with
  | error error => simp [writeSymbolDecls, built]
  | ok graph =>
    rcases fails with ⟨error, failed⟩ | circular
    · rw [built] at failed
      cases failed
    · cases sorted : table.topologicalSort order graph with
      | none => simp [writeSymbolDecls, built, sorted]
      | some ordering =>
        simp only [writeSymbolDecls, built, sorted] at circular
        have thrown := writeDefs_failure circular
        cases thrown

end MendingTable

section Failure
variable {table : MendingTable} {order : IterationOrder}

theorem mendfileWrites_short (noDisclaimer : Bool) :
    ("".intercalate (mendfileWrites noDisclaimer [])).length < 8192 := by
  cases noDisclaimer <;> decide +kernel

/-- Nothing reaches the file, which was emptied when it was opened. -/
theorem writeMendfile_content (buffering : Buffering) (noDisclaimer : Bool) (content : String)
    (fails : table.FailsInGraph order) :
    (writeMendfile buffering order noDisclaimer table content).content = "" := by
  obtain ⟨nothing, error, failed⟩ := fails.written
  have kept := buffering.passedOn_short _ (mendfileWrites_short noDisclaimer)
  simp [writeMendfile, failed, nothing, kept, openForWriting]

/-- A write that fails in the graph leaves the file as it was exactly when it was
empty. -/
theorem failed_write_keeps_iff (buffering : Buffering) (order : IterationOrder) (noDisclaimer : Bool)
    (table : MendingTable) (content : String) (fails : table.FailsInGraph order) :
    (writeMendfile buffering order noDisclaimer table content).content = content ↔ content = "" := by
  rw [writeMendfile_content buffering noDisclaimer content fails]
  exact eq_comm

theorem linkedListTable_fails : linkedListTable.FailsInGraph .listed := .inr (by decide +kernel)

theorem failed_first_write_keeps :
    (writeMendfile .unbounded .listed false linkedListTable "").content = "" :=
  (failed_write_keeps_iff .unbounded .listed false linkedListTable "" linkedListTable_fails).mpr rfl

/-- The mendfile of the iteration before is lost when the list node is rejected. -/
theorem failed_write_empties_mendfile :
    linkedListTable.FailsInGraph .listed ∧
      (writeMendfile .unbounded .listed false linkedListTable "struct node \x7b\x7d;\n\n").content = "" ∧
      (writeMendfile .unbounded .listed false linkedListTable "struct node \x7b\x7d;\n\n").content ≠
        "struct node \x7b\x7d;\n\n" :=
  ⟨linkedListTable_fails, by decide +kernel, by decide +kernel⟩

end Failure
end CMender
