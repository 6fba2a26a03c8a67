import CMender.Foundations.Maps

/-! Directed graphs as a map from each vertex to the set of its targets. An edge
can be added only from a vertex the graph already has. -/
namespace Foundations

abbrev Digraph (κ : Type) := Map κ (List κ)

namespace Digraph
variable {κ : Type} [DecidableEq κ]

def ofVertices (vertices : List κ) : Digraph κ :=
  vertices.foldl (fun graph vertex => graph.insert vertex []) .empty

def addEdge (graph : Digraph κ) (source target : κ) : Option (Digraph κ) :=
  (graph.lookup source).map fun targets => graph.insert source (targets.insert target)

def targets (graph : Digraph κ) (vertex : κ) : List κ := (graph.lookup vertex).getD []

/-- The graph has exactly these vertices, and exactly the edges of a relation. -/
structure Represents (graph : Digraph κ) (vertices : List κ) (edge : κ → κ → Prop) : Prop where
  vertices : ∀ vertex, vertex ∈ graph.keys ↔ vertex ∈ vertices
  edges : ∀ source target, target ∈ graph.targets source ↔ edge source target

variable {graph after : Digraph κ} {vertices : List κ} {edge other : κ → κ → Prop} {source target : κ}

theorem Represents.congr (represents : Represents graph vertices edge)
    (same : ∀ source target, edge source target ↔ other source target) :
    Represents graph vertices other :=
  ⟨represents.vertices, fun source target => (represents.edges source target).trans (same source target)⟩

theorem represents_foldl (represents : Represents graph vertices fun _ _ => False) (more : List κ) :
    Represents (more.foldl (fun graph vertex => graph.insert vertex []) graph) (vertices ++ more)
      fun _ _ => False := by
  induction more generalizing graph vertices with
  | nil => simpa using represents
  | cons vertex rest ih =>
    have inserted : Represents (graph.insert vertex []) (vertices ++ [vertex]) fun _ _ => False := by
      constructor
      · intro other
        have before := represents.vertices other
        simp only [Map.mem_keys, Map.lookup_insert] at before ⊢
        by_cases same : other = vertex
        · simp [same]
        · simpa [same] using before
      · intro source target
        have before := represents.edges source target
        simp only [targets, Map.lookup_insert] at before ⊢
        split
        · simp
        · exact before
    simpa [List.append_assoc] using ih inserted

theorem represents_ofVertices (vertices : List κ) :
    Represents (ofVertices vertices) vertices fun _ _ => False := by
  have initial : Represents (Map.empty : Digraph κ) [] fun _ _ => False := by
    constructor
    · intro vertex
      simp [Map.mem_keys]
    · intro source target
      simp [targets]
  have built := represents_foldl initial vertices
  rwa [List.nil_append] at built

theorem addEdge_isSome (represents : Represents graph vertices edge) (source target : κ) :
    (graph.addEdge source target).isSome = true ↔ source ∈ vertices := by
  rw [addEdge, Option.isSome_map, ← represents.vertices, Map.mem_keys, Option.isSome_iff_exists]

theorem Represents.addEdge (represents : Represents graph vertices edge)
    (added : graph.addEdge source target = some after) :
    Represents after vertices fun a b => edge a b ∨ (a = source ∧ b = target) := by
  obtain ⟨old, found, rfl⟩ := Option.map_eq_some_iff.mp added
  constructor
  · intro vertex
    have before := represents.vertices vertex
    simp only [Map.mem_keys, Map.lookup_insert] at before ⊢
    by_cases same : vertex = source
    · subst same
      simp [← before, found]
    · simpa [same] using before
  · intro a b
    have before := represents.edges a b
    simp only [targets, Map.lookup_insert] at before ⊢
    by_cases same : a = source
    · subst same
      simp only [found, Option.getD_some] at before
      simp [← before, or_comm]
    · simpa [same] using before

end Digraph
end Foundations
