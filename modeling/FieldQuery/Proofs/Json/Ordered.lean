import FieldQuery.Json.Reader
import FieldQuery.Proofs.Entries
import FieldQuery.Proofs.Fallible

/-!
# JSON values whose objects are maps

In a JSON value that is read from a text the keys of every object ascend, whatever their order in
the text, so no key occurs twice.
-/

set_option autoImplicit false

namespace FieldQuery

/-- A JSON value whose objects are maps: their keys ascend, so none occurs twice. -/
inductive Json.Ordered : Json → Prop where
  | null : Ordered .null
  | boolean {value : Bool} : Ordered (.boolean value)
  | number {value : Json.Number} : Ordered (.number value)
  | string {value : String} : Ordered (.string value)
  | array {items : List Json} (each : ∀ item ∈ items, Ordered item) : Ordered (.array items)
  | object {members : List (String × Json)} (ascending : Entries.Ascending members)
      (each : ∀ member ∈ members, Ordered member.2) : Ordered (.object members)

attribute [simp] Json.Ordered.null Json.Ordered.boolean Json.Ordered.number Json.Ordered.string

@[simp] theorem Json.ordered_array_iff {items : List Json} :
    (Json.array items).Ordered ↔ ∀ item ∈ items, item.Ordered := by
  constructor
  · intro ordered
    cases ordered with
    | array each => exact each
  · exact .array

@[simp] theorem Json.ordered_object_iff {members : List (String × Json)} :
    (Json.object members).Ordered ↔
      Entries.Ascending members ∧ ∀ member ∈ members, member.2.Ordered := by
  constructor
  · intro ordered
    cases ordered with
    | object ascending each => exact ⟨ascending, each⟩
  · rintro ⟨ascending, each⟩
    exact .object ascending each

namespace Json

def Gives {α : Type} {input : List Char} (condition : α → Prop)
    (outcome : Except Fault (Reading α input)) : Prop :=
  ∀ reading, outcome = .ok reading → condition reading.value

section

variable {α β : Type} {input other : List Char} {condition : α → Prop}

theorem gives_error {fault : Fault} :
    Gives condition (.error fault : Except Fault (Reading α input)) := nofun

theorem gives_ok {reading : Reading α input} (holds : condition reading.value) :
    Gives condition (.ok reading) := by
  rintro _ ⟨rfl⟩
  exact holds

theorem gives_true {outcome : Except Fault (Reading α input)} : Gives (fun _ => True) outcome :=
  fun _ _ => trivial

theorem Gives.bind {earlier : β → Prop} {first : Except Fault (Reading β input)}
    {next : Reading β input → Except Fault (Reading α other)} (gives : Gives earlier first)
    (continues : ∀ reading, earlier reading.value → Gives condition (next reading)) :
    Gives condition (first >>= next) := by
  intro reading read
  cases first with
  | error fault => cases read
  | ok between => exact continues between (gives between rfl) reading read

end

theorem ordered_readLiteral {first : Char} {due : List Char} {value : Json} (ordered : value.Ordered)
    (rest : List Char) : Gives Ordered (readLiteral first due value rest) := by
  rw [readLiteral]
  split
  · exact gives_ok ordered
  · exact gives_error

theorem ordered_readNumber (care : Care) (input : List Char) :
    Gives Ordered (readNumber care input) := by
  cases care with
  | skipped => exact gives_true.bind fun _ _ => gives_ok .null
  | kept =>
      refine gives_true.bind fun numeral _ => ?_
      split
      · exact gives_ok .number
      · exact gives_error

theorem ordered_readScalar (care : Care) (character : Char) (rest : List Char) :
    Gives Ordered (readScalar care character rest) := by
  unfold readScalar
  split
  · exact ordered_readLiteral .null rest
  · exact ordered_readLiteral .boolean rest
  · exact ordered_readLiteral .boolean rest
  · exact gives_true.bind fun _ _ => gives_ok .string
  · split
    · exact ordered_readNumber care _
    · exact gives_error

theorem ordered_collect {members : List (String × Json)}
    (each : ∀ member ∈ members, Ordered member.2) : (object (Entries.collect members)).Ordered :=
  .object (Entries.ascending_collect members) fun member found =>
    each member (Entries.mem_of_mem_collect found)

mutual

theorem ordered_readValue (care : Care) (room : Nat) (input : List Char) :
    Gives Ordered (readValue care room input) := by
  rw [readValue]
  split
  · exact gives_error
  · split
    · exact gives_error
    · refine (ordered_readItems care (room - 1) _).bind fun items ordered => ?_
      exact gives_ok (.array ordered)
  · split
    · exact gives_error
    · refine (ordered_readMembers care (room - 1) _).bind fun members ordered => ?_
      exact gives_ok (ordered_collect ordered)
  · refine (ordered_readScalar care _ _).bind fun scalar ordered => ?_
    exact gives_ok ordered
termination_by (input.length, 0)
decreasing_by
  all_goals exact Prod.Lex.left _ _ (length_lt_of_dropSeparators_eq ‹_›)

theorem ordered_readItems (care : Care) (room : Nat) (input : List Char) :
    Gives (fun items => ∀ item ∈ items, Ordered item) (readItems care room input) := by
  rw [readItems]
  split
  · exact gives_ok nofun
  · refine (ordered_readValue care room input).bind fun item first => ?_
    refine (ordered_readFurtherItems care room item.rest).bind fun others later => ?_
    exact gives_ok (List.forall_mem_cons.mpr ⟨first, later⟩)
termination_by (input.length, 1)
decreasing_by
  · exact Prod.Lex.right _ Nat.zero_lt_one
  · exact Prod.Lex.left _ _ item.shorter

theorem ordered_readFurtherItems (care : Care) (room : Nat) (input : List Char) :
    Gives (fun items => ∀ item ∈ items, Ordered item) (readFurtherItems care room input) := by
  rw [readFurtherItems]
  split
  · exact gives_error
  · exact gives_ok nofun
  · next rest dropped =>
      refine (ordered_readValue care room rest).bind fun item first => ?_
      refine (ordered_readFurtherItems care room item.rest).bind fun others later => ?_
      exact gives_ok (List.forall_mem_cons.mpr ⟨first, later⟩)
  · exact gives_error
termination_by (input.length, 0)
decreasing_by
  · exact Prod.Lex.left _ _ (length_lt_of_dropSeparators_eq ‹_›)
  · exact Prod.Lex.left _ _ (Nat.lt_trans item.shorter (length_lt_of_dropSeparators_eq ‹_›))

theorem ordered_readMembers (care : Care) (room : Nat) (input : List Char) :
    Gives (fun members => ∀ member ∈ members, Ordered member.2) (readMembers care room input) := by
  rw [readMembers]
  split
  · exact gives_ok nofun
  · refine (ordered_readMember care room input).bind fun member first => ?_
    refine (ordered_readFurtherMembers care room member.rest).bind fun others later => ?_
    exact gives_ok (List.forall_mem_cons.mpr ⟨first, later⟩)
termination_by (input.length, 2)
decreasing_by
  · exact Prod.Lex.right _ (by decide)
  · exact Prod.Lex.left _ _ member.shorter

theorem ordered_readMember (care : Care) (room : Nat) (input : List Char) :
    Gives (fun member => Ordered member.2) (readMember care room input) := by
  rw [readMember]
  refine gives_true.bind fun key _ => ?_
  refine gives_true.bind fun colon _ => ?_
  refine (ordered_readValue care room colon.rest).bind fun value ordered => ?_
  exact gives_ok ordered
termination_by (input.length, 1)
decreasing_by exact Prod.Lex.left _ _ (Nat.lt_trans colon.shorter key.shorter)

theorem ordered_readFurtherMembers (care : Care) (room : Nat) (input : List Char) :
    Gives (fun members => ∀ member ∈ members, Ordered member.2)
      (readFurtherMembers care room input) := by
  rw [readFurtherMembers]
  split
  · exact gives_error
  · exact gives_ok nofun
  · next rest dropped =>
      refine (ordered_readMember care room rest).bind fun member first => ?_
      refine (ordered_readFurtherMembers care room member.rest).bind fun others later => ?_
      exact gives_ok (List.forall_mem_cons.mpr ⟨first, later⟩)
  · exact gives_error
termination_by (input.length, 0)
decreasing_by
  · exact Prod.Lex.left _ _ (length_lt_of_dropSeparators_eq ‹_›)
  · exact Prod.Lex.left _ _ (Nat.lt_trans member.shorter (length_lt_of_dropSeparators_eq ‹_›))

end

/-- A JSON value that is read from a text has ascending keys in all its objects. -/
theorem ordered_of_read {text : String} {value : Json} (accepted : read text = .ok value) :
    value.Ordered := by
  have gives := ordered_readValue .kept greatestDepth text.toList
  obtain ⟨reading, outcome, ended⟩ := Fallible.bind_eq_ok_iff.mp accepted
  split at ended
  · cases ended
    exact gives reading outcome
  · cases ended

end Json

end FieldQuery
