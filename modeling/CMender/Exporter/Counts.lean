import CMender.Exporter.Consumer

/-! The counters of the consumer, over any number of diagnostics: each holds the
number of diagnostics of its level, up to the width of an unsigned int. -/
namespace CMender.Exporter

def levelCount (diags : List ClangDiagnostic) (level : DiagnosticLevel) : Nat :=
  diags.countP (·.level == level)

namespace DiagnosticCounts
variable (counts : DiagnosticCounts)

def ofLevel : DiagnosticLevel → BitVec 32
  | .ignored => counts.ignoredCount
  | .note => counts.noteCount
  | .remark => counts.remarkCount
  | .warning => counts.warningCount
  | .error => counts.errorCount
  | .fatal => counts.fatalCount

@[simp] theorem updateDiagnosticCounts_total (level : DiagnosticLevel) :
    (counts.updateDiagnosticCounts level).totalDiagsCount = counts.totalDiagsCount + 1 := by
  cases level <;> rfl

theorem updateDiagnosticCounts_ofLevel (counted level : DiagnosticLevel) :
    (counts.updateDiagnosticCounts counted).ofLevel level =
      if counted = level then counts.ofLevel level + 1 else counts.ofLevel level := by
  cases counted <;> cases level <;> rfl

theorem after_total (diags : List ClangDiagnostic) :
    (counts.after diags).totalDiagsCount = counts.totalDiagsCount + BitVec.ofNat 32 diags.length := by
  induction diags generalizing counts with
  | nil => simp [after]
  | cons diag rest ih =>
    change ((counts.updateDiagnosticCounts diag.level).after rest).totalDiagsCount = _
    rw [ih, updateDiagnosticCounts_total, List.length_cons, Nat.add_comm, BitVec.ofNat_add,
      BitVec.add_assoc]
    rfl

theorem after_ofLevel (diags : List ClangDiagnostic) (level : DiagnosticLevel) :
    (counts.after diags).ofLevel level =
      counts.ofLevel level + BitVec.ofNat 32 (levelCount diags level) := by
  induction diags generalizing counts with
  | nil => simp [after, levelCount]
  | cons diag rest ih =>
    change ((counts.updateDiagnosticCounts diag.level).after rest).ofLevel level = _
    rw [ih, updateDiagnosticCounts_ofLevel]
    by_cases same : diag.level = level
    · rw [if_pos same, levelCount, levelCount, List.countP_cons_of_pos (by simpa using same),
        Nat.add_comm, BitVec.ofNat_add, BitVec.add_assoc]
      rfl
    · rw [if_neg same, levelCount, levelCount, List.countP_cons_of_neg (by simpa using same)]

theorem zero_after_total (diags : List ClangDiagnostic) :
    (zero.after diags).totalDiagsCount.toNat = diags.length % 2 ^ 32 := by
  rw [after_total]
  simp [zero]

theorem zero_after_ofLevel (diags : List ClangDiagnostic) (level : DiagnosticLevel) :
    ((zero.after diags).ofLevel level).toNat = levelCount diags level % 2 ^ 32 := by
  have none : zero.ofLevel level = 0 := by cases level <;> rfl
  rw [after_ofLevel, none]
  simp

end DiagnosticCounts

/-- No level has more diagnostics than there are. -/
theorem levelCount_le (diags : List ClangDiagnostic) (level : DiagnosticLevel) :
    levelCount diags level ≤ diags.length := List.countP_le_length

end CMender.Exporter
