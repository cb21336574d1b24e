import FieldQuery.Execution.Basic
import FieldQuery.Interchange.Encode
import FieldQuery.Proofs.Entries
import FieldQuery.Proofs.Fallible

/-!
# Queries through the interchange form

The interchange form of a query reads as that query: a branch without arguments is told from one
with arguments by the length of its list, and words keep their values as numbers. So executing the
form is executing the query.
-/

set_option autoImplicit false

namespace FieldQuery.Interchange

open Query

@[simp] theorem int64?_ofInt64 (value : Int64) : (Json.Number.ofInt64 value).int64? = some value := by
  rw [Json.Number.ofInt64, Json.Number.int64?, if_pos (Numeric.inInt64_toInt value),
    Int64.ofInt_toInt]

theorem decodeArgument_encodeArgument (path : Path) (key : String) (value : ArgumentValue) :
    decodeArgument path key (encodeArgument value) = .ok value := by
  cases value with
  | integer value => simp [encodeArgument, decodeArgument]
  | text value => rfl

theorem decodeArguments_encodeArguments (path : Path) (arguments : Arguments) :
    decodeArguments path (encodeArguments arguments) = .ok arguments := by
  rw [decodeArguments, encodeArguments, Fallible.mapM_map_eq_ok]
  · exact congrArg Except.ok arguments.ofList_entries
  · rintro ⟨key, value⟩
    simp only [decodeArgument_encodeArgument]
    rfl

theorem eq_empty_of_isEmpty {arguments : Arguments} (isEmpty : arguments.isEmpty = true) :
    arguments = .empty :=
  Dict.eq_of_entries_eq (List.isEmpty_iff.mp isEmpty)

mutual

theorem decodeSelection_encodeSelection (path : Path) (selection : Selection) :
    decodeSelection path (encodeSelection selection) = .ok selection := by
  match selection with
  | .leaf name => rw [encodeSelection, decodeSelection]
  | .branch name arguments selections =>
      have nested := decodeSelections_encodeSelections (path ++ [name]) selections
      rw [encodeSelection]
      split
      · next isEmpty =>
          rw [decodeSelection, nested, eq_empty_of_isEmpty isEmpty]
          rfl
      · rw [decodeSelection, nested, decodeArguments_encodeArguments]
        rfl

theorem decodeSelections_encodeSelections (path : Path) (selections : List Selection) :
    decodeSelections path (encodeSelections selections) = .ok selections := by
  match selections with
  | [] => rw [encodeSelections, decodeSelections]
  | selection :: rest =>
      rw [encodeSelections, decodeSelections, decodeSelection_encodeSelection path selection,
        decodeSelections_encodeSelections path rest]
      rfl

end

theorem decode_encode (selections : List Selection) : decode (encode selections) = .ok selections :=
  decodeSelections_encodeSelections [] selections

end FieldQuery.Interchange

namespace FieldQuery.Execution

open Query

/-- The interchange form of a query reads as that query, whatever its names and arguments are, and
executing the form on a graph does what executing the query does. -/
theorem interchange_roundTrip (selections : List Selection) :
    Interchange.decode (Interchange.encode selections) = .ok selections ∧
      ∀ {State Node : Type} (graph : DataGraph State Node) (limit : DepthLimit) (root : Node)
        (before : State),
        (executeInterchange graph limit (Interchange.encode selections) root).outcome before =
          (execute graph limit selections root).outcome before := by
  have read := Interchange.decode_encode selections
  refine ⟨read, ?_⟩
  intro State Node graph limit root before
  rw [executeInterchange, read]

end FieldQuery.Execution
