import FieldQuery.Proofs.DataGraph.Observation
import FieldQuery.Proofs.Execution.Repetition

/-!
# Addresses of calls

The place of a visit and a query give the selection set for which a node is entered. Each call has
an address in the query: for every step to its node the rank of the collection's name among the
names asked for and the index of the child, and at the end the rank of the field that is called.
Addresses are compared like words of a dictionary. So a node's hook comes first, its fields follow
in the order in which they are asked for, and what lies below a field comes before the next one.
-/

set_option autoImplicit false

namespace FieldQuery.Execution

open Query DataGraph

variable {Node : Type}

/-- What is asked of the children under a name. Of several selections with the name only the first
counts. -/
def askedBelow (selections : List Selection) (name : String) : List Selection :=
  match selections.find? fun selection => selection.name == name with
  | some (.branch _ _ nested) => nested
  | some (.leaf _) | none => []

def askedAt (query : List Selection) (place : List (String × Nat)) : List Selection :=
  place.foldl (fun selections step => askedBelow selections step.1) query

def rank (selections : List Selection) (name : String) : Nat := (requested selections).idxOf name

def placeAddress (query : List Selection) : List (String × Nat) → List Nat
  | [] => []
  | (name, index) :: rest =>
      rank query name :: index :: placeAddress (askedBelow query name) rest

/-- The address of a call on a node, within the address of the node's place. -/
def callAddress (selections : List Selection) : Call → List Nat
  | .hook _ _ => []
  | .scalar name | .collection name _ => [rank selections name]

def address (query : List Selection) (event : Event Node) : List Nat :=
  placeAddress query event.visit.place ++ callAddress (askedAt query event.visit.place) event.call

/-- A selection set asks for a call: a hook is told all names, each once in the order of their
first occurrences, and a field is resolved as the first selection of its name says. -/
def Asks (selections : List Selection) : Call → Prop
  | .hook names _ => names = requested selections
  | .scalar name =>
      selections.find? (fun selection => selection.name == name) = some (.leaf name)
  | .collection name arguments => ∃ nested,
      selections.find? (fun selection => selection.name == name) =
        some (.branch name arguments nested)

theorem askedAt_append (query : List Selection) (front back : List (String × Nat)) :
    askedAt query (front ++ back) = askedAt (askedAt query front) back := List.foldl_append

theorem placeAddress_append (query : List Selection) (front back : List (String × Nat)) :
    placeAddress query (front ++ back) =
      placeAddress query front ++ placeAddress (askedAt query front) back := by
  induction front generalizing query with
  | nil => rfl
  | cons step front ih =>
      obtain ⟨name, index⟩ := step
      simp only [List.cons_append, placeAddress, ih]
      rfl

theorem isPrefix_placeAddress {query : List Selection} {outer inner : List (String × Nat)}
    (within : outer <+: inner) : placeAddress query outer <+: placeAddress query inner := by
  obtain ⟨back, rfl⟩ := within
  rw [placeAddress_append]
  exact List.prefix_append _ _

theorem address_hook (query : List Selection) (visit : Visit Node) (names : List String)
    (refusal : Option String) :
    address query ⟨visit, .hook names refusal⟩ = placeAddress query visit.place :=
  List.append_nil _

/-- No call on a node, or below it, has an address before that of the node's place. -/
theorem not_address_lt {query : List Selection} {place : List (String × Nat)}
    {event : Event Node} (within : place <+: event.visit.place) :
    ¬ address query event < placeAddress query place := by
  rw [List.not_lt]
  exact ((isPrefix_placeAddress within).trans (List.prefix_append _ _)).le

/-- Inside a place, the field with the smaller rank comes first. -/
theorem append_lt_of_lt (place : List Nat) {smaller greater : Nat} (lt : smaller < greater)
    (inner outer : List Nat) : place ++ smaller :: inner < place ++ greater :: outer :=
  List.append_left_lt (List.cons_lt_cons_iff.mpr (.inl lt))

theorem lt_append_cons (place : List Nat) (first : Nat) (rest : List Nat) :
    place < place ++ first :: rest := by
  have begins : place ++ [] < place ++ first :: rest :=
    List.append_left_lt (List.nil_lt_cons first rest)
  rwa [List.append_nil] at begins

/-- A selection that counts is the first of its name, and its rank is the number of those before
it. -/
theorem find?_of_firsts {selections done rest : List Selection} {selection : Selection}
    (split : firsts selections = done ++ selection :: rest) :
    selections.find? (fun other => other.name == selection.name) = some selection :=
  mem_firsts_iff.mp (split ▸ List.mem_append_right done List.mem_cons_self)

theorem rank_of_firsts {selections done rest : List Selection} {selection : Selection}
    (split : firsts selections = done ++ selection :: rest)
    (new : selection.name ∉ done.map Selection.name) :
    rank selections selection.name = done.length := by
  rw [rank, ← map_name_firsts, split, List.map_append, List.idxOf_append, if_neg new,
    List.map_cons, List.idxOf_cons_self, Nat.zero_add, List.length_map]

end FieldQuery.Execution
