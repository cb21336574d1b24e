import FieldQuery.Proofs.DataGraph.Observation
import FieldQuery.Proofs.Interchange.DocumentedForm
import Mathlib.Data.List.Basic

/-!
# The first offence of a JSON value

A JSON value can depart from the interchange form at many places. Which places these are is said
here without an order in which they are looked at, and so is the order of the places. The error of
a reading is then the first departure of all.
-/

set_option autoImplicit false

namespace FieldQuery.Interchange

open Query Fallible

inductive Spot where
  /-- The node as a whole: its type and its length. -/
  | node
  | name
  | selections
  | arguments
  | argument (key : String)
  /-- A place of the selection with an index. -/
  | nested (index : Nat) (spot : Spot)

namespace Spot

def rank : Spot → Nat
  | .node => 0
  | .name => 1
  | .selections => 2
  | .arguments => 3
  | .argument _ => 4
  | .nested _ _ => 5

/-- The order of the places of a value: nodes before what they contain, arguments by their keys and
selections from left to right. -/
inductive Before : Spot → Spot → Prop where
  | rank {first second : Spot} (lower : first.rank < second.rank) : Before first second
  | key {first second : String} (lower : first < second) :
      Before (.argument first) (.argument second)
  | index {first second : Nat} {here there : Spot} (lower : first < second) :
      Before (.nested first here) (.nested second there)
  | inside {index : Nat} {first second : Spot} (before : Before first second) :
      Before (.nested index first) (.nested index second)

theorem Before.asymm {first second : Spot} (before : Before first second) :
    ¬ Before second first := by
  induction before with
  | rank lower =>
      intro after
      cases after with
      | rank higher => exact Nat.lt_asymm lower higher
      | key | index | inside => exact Nat.lt_irrefl _ lower
  | key lower =>
      intro after
      cases after with
      | rank higher => exact Nat.lt_irrefl _ higher
      | key higher => exact String.lt_asymm lower higher
  | index lower =>
      intro after
      cases after with
      | rank higher => exact Nat.lt_irrefl _ higher
      | index higher => exact Nat.lt_asymm lower higher
      | inside => exact Nat.lt_irrefl _ lower
  | inside _ ih =>
      intro after
      cases after with
      | rank higher => exact Nat.lt_irrefl _ higher
      | index higher => exact Nat.lt_irrefl _ higher
      | inside higher => exact ih higher

end Spot

/-- A departure: where it is, the names of the branches around it, and what is wrong. -/
structure Offence where
  spot : Spot
  names : Path
  fault : Fault

def Offence.within (names : Path) (index : Nat) (offence : Offence) : Offence :=
  ⟨.nested index offence.spot, names ++ offence.names, offence.fault⟩

inductive ArgumentOffends (key : String) : Json → Fault → Prop where
  | number {number : Json.Number} (notSigned : ¬ ArgumentForm (.number number)) :
      ArgumentOffends key (.number number) (.argumentNotInteger key)
  | other {value : Json} (notText : ∀ text, value ≠ .string text)
      (notNumber : ∀ number, value ≠ .number number) :
      ArgumentOffends key value (.argumentNeitherIntegerNorString key)

/-- The departures of a value from the form of a selection. A branch is around its own selections
and arguments, but not around its name. -/
inductive Offends : Json → Offence → Prop where
  | type {json : Json} (notText : ∀ text, json ≠ .string text)
      (notList : ∀ items, json ≠ .array items) : Offends json ⟨.node, [], .neitherStringNorList⟩
  | length {items : List Json} (notTwo : items.length ≠ 2) (notThree : items.length ≠ 3) :
      Offends (.array items) ⟨.node, [], .wrongLength⟩
  | name {first : Json} {rest : List Json} (notText : ∀ text, first ≠ .string text) :
      Offends (.array (first :: rest)) ⟨.name, [], .nameNotString⟩
  | selections {name : String} {second : Json} {rest : List Json}
      (notList : ∀ items, second ≠ .array items) :
      Offends (.array (.string name :: second :: rest)) ⟨.selections, [name], .selectionsNotList⟩
  | arguments {name : String} {second third : Json} {rest : List Json}
      (notObject : ∀ members, third ≠ .object members) :
      Offends (.array (.string name :: second :: third :: rest))
        ⟨.arguments, [name], .argumentsNotObject⟩
  | argument {name key : String} {second value : Json} {members : List (String × Json)}
      {rest : List Json} {fault : Fault} (member : (key, value) ∈ members)
      (offends : ArgumentOffends key value fault) :
      Offends (.array (.string name :: second :: .object members :: rest))
        ⟨.argument key, [name], fault⟩
  | nested {name : String} {items rest : List Json} {index : Nat} {item : Json}
      {offence : Offence} (found : items[index]? = some item) (offends : Offends item offence) :
      Offends (.array (.string name :: .array items :: rest))
        (offence.within [name] index)

inductive QueryOffends : Json → Offence → Prop where
  | query {json : Json} (notList : ∀ items, json ≠ .array items) :
      QueryOffends json ⟨.node, [], .queryNotList⟩
  | nested {items : List Json} {index : Nat} {item : Json} {offence : Offence}
      (found : items[index]? = some item) (offends : Offends item offence) :
      QueryOffends (.array items) (offence.within [] index)

/-- Of the departures of a kind, one comes before all others. -/
structure First (kind : Offence → Prop) (offence : Offence) : Prop where
  departs : kind offence
  first : ∀ other, kind other → other = offence ∨ offence.spot.Before other.spot

theorem First.unique {departs : Offence → Prop} {first second : Offence}
    (isFirst : First departs first) (alsoFirst : First departs second) : first = second := by
  rcases alsoFirst.first first isFirst.departs with same | before
  · exact same
  · rcases isFirst.first second alsoFirst.departs with same | after
    · exact same.symm
    · exact absurd after before.asymm

/-! ## What departs is not accepted -/

theorem ArgumentOffends.not_form {key : String} {value : Json} {fault : Fault}
    (offends : ArgumentOffends key value fault) : ¬ ArgumentForm value := by
  cases offends with
  | number notSigned => exact notSigned
  | other notText notNumber =>
      intro form
      cases form with
      | text => exact notText _ rfl
      | integer => exact notNumber _ rfl

theorem Offends.not_form {json : Json} {offence : Offence} (offends : Offends json offence) :
    ¬ SelectionForm json := by
  induction offends with
  | type notText notList =>
      intro form
      cases form with
      | leaf => exact notText _ rfl
      | branch | called => exact notList _ rfl
  | length notTwo notThree =>
      intro form
      cases form with
      | branch => exact notTwo rfl
      | called => exact notThree rfl
  | name notText =>
      intro form
      cases form <;> exact notText _ rfl
  | selections notList =>
      intro form
      cases form <;> exact notList _ rfl
  | arguments notObject =>
      intro form
      cases form
      exact notObject _ rfl
  | argument member offends =>
      intro form
      cases form with
      | called _ arguments => exact offends.not_form (arguments _ member)
  | nested found _ ih =>
      intro form
      cases form with
      | branch nested | called nested _ => exact ih (nested _ (List.mem_of_getElem? found))

theorem QueryOffends.not_form {json : Json} {offence : Offence}
    (offends : QueryOffends json offence) : ¬ QueryForm json := by
  intro form
  obtain ⟨items, rfl, nested⟩ := form
  cases offends with
  | query notList => exact notList _ rfl
  | nested found offends => exact offends.not_form (nested _ (List.mem_of_getElem? found))

/-! ## What is not accepted departs -/

theorem argumentOffends_of_decodeArgument {path : Path} {key : String} {value : Json}
    {error : ShapeError} (refused : decodeArgument path key value = .error error) :
    ∃ fault, ArgumentOffends key value fault ∧ error = ⟨path, fault⟩ := by
  have notForm : ¬ ArgumentForm value := by
    intro form
    obtain ⟨_, accepted⟩ := argumentForm_iff.mp form
    rw [accepted] at refused
    cases refused
  unfold decodeArgument at refused
  split at refused
  · cases refused
  · split at refused
    · cases refused
    · cases refused
      exact ⟨_, .number notForm, rfl⟩
  · next notText notNumber =>
      cases refused
      exact ⟨_, .other notText notNumber, rfl⟩

theorem ArgumentOffends.unique {key : String} {value : Json} {first second : Fault}
    (offends : ArgumentOffends key value first) (alsoOffends : ArgumentOffends key value second) :
    first = second := by
  cases offends with
  | number =>
      cases alsoOffends with
      | number => rfl
      | other _ notNumber => exact absurd rfl (notNumber _)
  | other _ notNumber =>
      cases alsoOffends with
      | number => exact absurd rfl (notNumber _)
      | other => rfl

/-- Of the arguments that depart, the error is that of the one with the least key. -/
theorem firstOffence_of_decodeArguments {path : Path} {members : List (String × Json)}
    (ascending : Entries.Ascending members) {error : ShapeError}
    (refused : decodeArguments path members = .error error) :
    ∃ key value fault, (key, value) ∈ members ∧ ArgumentOffends key value fault ∧
      error = ⟨path, fault⟩ ∧
      ∀ other otherValue otherFault, (other, otherValue) ∈ members →
        ArgumentOffends other otherValue otherFault →
        other = key ∧ otherFault = fault ∨ key < other := by
  rcases bind_eq_error_iff.mp refused with failed | ⟨_, _, returned⟩
  · obtain ⟨front, ⟨key, value⟩, back, rfl, failed, accepted⟩ := split_of_mapM_eq_error failed
    rcases bind_eq_error_iff.mp failed with failed | ⟨_, _, returned⟩
    · obtain ⟨fault, offends, rfl⟩ := argumentOffends_of_decodeArgument failed
      refine ⟨key, value, fault, by simp, offends, rfl, ?_⟩
      intro other otherValue otherFault member alsoOffends
      rcases List.mem_append.mp member with earlier | here
      · obtain ⟨_, read⟩ := accepted _ earlier
        obtain ⟨_, given, _⟩ := bind_eq_ok_iff.mp read
        exact absurd (argumentForm_iff.mpr ⟨_, given⟩) alsoOffends.not_form
      rcases List.mem_cons.mp here with same | later
      · cases same
        exact .inl ⟨rfl, alsoOffends.unique offends⟩
      · have behind := (List.pairwise_append.mp ascending).2.1
        exact .inr (List.rel_of_pairwise_cons behind later)
    · cases returned
  · cases returned

theorem decodeSelections_eq_mapM (path : Path) (items : List Json) :
    decodeSelections path items = items.mapM (decodeSelection path) := by
  induction items with
  | nil => rw [decodeSelections, List.mapM_nil]; rfl
  | cons item rest ih => rw [decodeSelections, List.mapM_cons, ih]

/-- Of the items of a set, the error is that of the leftmost one that departs. -/
theorem firstOffence_of_decodeSelections {path names : Path} {items : List Json}
    {error : ShapeError} {kind : Offence → Prop}
    (inside : ∀ other, kind other ↔ ∃ index item offence, items[index]? = some item ∧
      Offends item offence ∧ other = offence.within names index)
    (each : ∀ item ∈ items, decodeSelection (path ++ names) item = .error error →
      ∃ offence, First (Offends item) offence ∧
        error = ⟨path ++ names ++ offence.names, offence.fault⟩)
    (refused : decodeSelections (path ++ names) items = .error error) :
    ∃ offence, First kind offence ∧ error = ⟨path ++ offence.names, offence.fault⟩ := by
  rw [decodeSelections_eq_mapM] at refused
  obtain ⟨front, item, back, rfl, failed, accepted⟩ := split_of_mapM_eq_error refused
  obtain ⟨offence, first, rfl⟩ := each item (by simp) failed
  refine ⟨offence.within names front.length, ⟨?_, ?_⟩, by simp [Offence.within]⟩
  · exact (inside _).mpr ⟨front.length, item, offence, by simp, first.departs, rfl⟩
  intro other departs
  obtain ⟨index, otherItem, inner, found, offends, rfl⟩ := (inside other).mp departs
  rcases Nat.lt_trichotomy index front.length with earlier | rfl | later
  · rw [List.getElem?_append_left earlier] at found
    obtain ⟨selection, read⟩ := accepted _ (List.mem_of_getElem? found)
    exact absurd (selectionForm_of_decode selection read) offends.not_form
  · rw [List.getElem?_append_right (Nat.le_refl _), Nat.sub_self] at found
    cases found
    rcases first.first inner offends with rfl | before
    · exact .inl rfl
    · exact .inr (.inside before)
  · exact .inr (.index later)

/-! ## The first departure of one node -/

theorem first_type {json : Json} (notText : ∀ text, json ≠ .string text)
    (notList : ∀ items, json ≠ .array items) :
    First (Offends json) ⟨.node, [], .neitherStringNorList⟩ := by
  refine ⟨.type notText notList, ?_⟩
  intro other departs
  cases departs with
  | type => exact .inl rfl
  | _ => exact absurd rfl (notList _)

theorem first_length {items : List Json} (notTwo : items.length ≠ 2) (notThree : items.length ≠ 3) :
    First (Offends (.array items)) ⟨.node, [], .wrongLength⟩ := by
  refine ⟨.length notTwo notThree, ?_⟩
  intro other departs
  cases departs with
  | type _ notList => exact absurd rfl (notList _)
  | length => exact .inl rfl
  | _ => exact .inr (.rank (by simp [Offence.within, Spot.rank]))

section

variable {name : String} {first second third : Json} {rest items : List Json}
  {members : List (String × Json)}

theorem first_name (measured : (first :: rest).length = 2 ∨ (first :: rest).length = 3)
    (notText : ∀ text, first ≠ .string text) :
    First (Offends (.array (first :: rest))) ⟨.name, [], .nameNotString⟩ := by
  refine ⟨.name notText, ?_⟩
  intro other departs
  cases departs with
  | type _ notList => exact absurd rfl (notList _)
  | length notTwo notThree => exact absurd measured (not_or.mpr ⟨notTwo, notThree⟩)
  | name => exact .inl rfl
  | _ => exact .inr (.rank (by simp [Offence.within, Spot.rank]))

theorem first_selections (measured : (Json.string name :: second :: rest).length = 2 ∨
      (Json.string name :: second :: rest).length = 3)
    (notList : ∀ items, second ≠ .array items) :
    First (Offends (.array (.string name :: second :: rest)))
      ⟨.selections, [name], .selectionsNotList⟩ := by
  refine ⟨.selections notList, ?_⟩
  intro other departs
  cases departs with
  | type _ notList => exact absurd rfl (notList _)
  | length notTwo notThree => exact absurd measured (not_or.mpr ⟨notTwo, notThree⟩)
  | name notText => exact absurd rfl (notText _)
  | selections => exact .inl rfl
  | _ => exact .inr (.rank (by simp [Offence.within, Spot.rank]))

theorem first_arguments (notObject : ∀ members, third ≠ .object members) :
    First (Offends (.array [.string name, .array items, third]))
      ⟨.arguments, [name], .argumentsNotObject⟩ := by
  refine ⟨.arguments notObject, ?_⟩
  intro other departs
  cases departs with
  | type _ notList => exact absurd rfl (notList _)
  | length _ notThree => exact absurd rfl notThree
  | name notText => exact absurd rfl (notText _)
  | selections notList => exact absurd rfl (notList _)
  | arguments => exact .inl rfl
  | argument => exact absurd rfl (notObject _)
  | nested => exact .inr (.rank (by simp [Offence.within, Spot.rank]))

theorem offends_branch_iff {offence : Offence} :
    Offends (.array [.string name, .array items]) offence ↔
      ∃ index item inner, items[index]? = some item ∧ Offends item inner ∧
        offence = inner.within [name] index := by
  constructor
  · intro departs
    cases departs with
    | type _ notList => exact absurd rfl (notList _)
    | length notTwo => exact absurd rfl notTwo
    | name notText => exact absurd rfl (notText _)
    | selections notList => exact absurd rfl (notList _)
    | nested found offends => exact ⟨_, _, _, found, offends, rfl⟩
  · intro inside
    obtain ⟨index, item, inner, found, offends, rfl⟩ := inside
    exact .nested found offends

theorem offends_called_iff {offence : Offence} :
    Offends (.array [.string name, .array items, .object members]) offence ↔
      (∃ key value fault, (key, value) ∈ members ∧ ArgumentOffends key value fault ∧
        offence = ⟨.argument key, [name], fault⟩) ∨
      ∃ index item inner, items[index]? = some item ∧ Offends item inner ∧
        offence = inner.within [name] index := by
  constructor
  · intro departs
    cases departs with
    | type _ notList => exact absurd rfl (notList _)
    | length _ notThree => exact absurd rfl notThree
    | name notText => exact absurd rfl (notText _)
    | selections notList => exact absurd rfl (notList _)
    | arguments notObject => exact absurd rfl (notObject _)
    | argument member offends => exact .inl ⟨_, _, _, member, offends, rfl⟩
    | nested found offends => exact .inr ⟨_, _, _, found, offends, rfl⟩
  · intro departs
    rcases departs with departs | inside
    · obtain ⟨key, value, fault, member, offends, rfl⟩ := departs
      exact .argument member offends
    · obtain ⟨index, item, inner, found, offends, rfl⟩ := inside
      exact .nested found offends

end

theorem firstOffence_of_node {path : Path} {json : Json} (ordered : json.Ordered)
    {error : ShapeError}
    (each : ∀ name items rest, json = .array (.string name :: .array items :: rest) →
      ∀ item ∈ items, decodeSelection (path ++ [name]) item = .error error →
      ∃ offence, First (Offends item) offence ∧
        error = ⟨path ++ [name] ++ offence.names, offence.fault⟩)
    (refused : decodeSelection path json = .error error) :
    ∃ offence, First (Offends json) offence ∧
      error = ⟨path ++ offence.names, offence.fault⟩ := by
  unfold decodeSelection at refused
  split at refused
  · cases refused
  · next name items =>
      rcases bind_eq_error_iff.mp refused with failed | ⟨_, _, returned⟩
      · exact firstOffence_of_decodeSelections (fun _ => offends_branch_iff)
          (each name items [] rfl) failed
      · cases returned
  · next name items members =>
      have both : (∀ item ∈ items, item.Ordered) ∧ Entries.Ascending members ∧
          ∀ member ∈ members, member.2.Ordered := by simpa using ordered
      obtain ⟨_, ascending, _⟩ := both
      rcases bind_eq_error_iff.mp refused with failed | ⟨arguments, given, refused⟩
      · obtain ⟨key, value, fault, member, offends, rfl, behind⟩ :=
          firstOffence_of_decodeArguments ascending failed
        refine ⟨⟨.argument key, [name], fault⟩, ⟨.argument member offends, ?_⟩, rfl⟩
        intro other departs
        rcases offends_called_iff.mp departs with
          ⟨otherKey, _, otherFault, alsoMember, alsoOffends, rfl⟩ | ⟨_, _, _, _, _, rfl⟩
        · rcases behind _ _ _ alsoMember alsoOffends with ⟨rfl, rfl⟩ | later
          · exact .inl rfl
          · exact .inr (.key later)
        · exact .inr (.rank (by simp [Offence.within, Spot.rank]))
      rcases bind_eq_error_iff.mp refused with failed | ⟨_, _, returned⟩
      · have forms := exists_decodeArguments_iff.mp ⟨arguments, given⟩
        have onlyNested (other : Offence) :
            Offends (.array [.string name, .array items, .object members]) other ↔
              ∃ index item inner, items[index]? = some item ∧ Offends item inner ∧
                other = inner.within [name] index := by
          rw [offends_called_iff, or_iff_right]
          intro departs
          obtain ⟨key, value, fault, member, offends, _⟩ := departs
          exact offends.not_form (forms _ member)
        exact firstOffence_of_decodeSelections onlyNested (each name items _ rfl) failed
      · cases returned
  · next notObject =>
      cases refused
      exact ⟨_, first_arguments notObject, rfl⟩
  · next notList =>
      cases refused
      exact ⟨_, first_selections (.inl rfl) notList, rfl⟩
  · next _ notList =>
      cases refused
      exact ⟨_, first_selections (.inr rfl) notList, rfl⟩
  · next notText =>
      cases refused
      exact ⟨_, first_name (.inl rfl) notText, by simp⟩
  · next notText =>
      cases refused
      exact ⟨_, first_name (.inr rfl) notText, by simp⟩
  · next notTwo notThree =>
      cases refused
      refine ⟨_, first_length ?_ ?_, by simp⟩
      · intro two
        obtain ⟨first, second, same⟩ := List.length_eq_two.mp two
        exact notTwo first second same
      · intro three
        obtain ⟨first, second, third, same⟩ := List.length_eq_three.mp three
        exact notThree first second third same
  · next notText _ _ _ _ _ _ _ notList =>
      cases refused
      exact ⟨_, first_type notText notList, by simp⟩

theorem firstOffence_of_decodeSelection {path : Path} {json : Json} (ordered : json.Ordered)
    {error : ShapeError} (refused : decodeSelection path json = .error error) :
    ∃ offence, First (Offends json) offence ∧
      error = ⟨path ++ offence.names, offence.fault⟩ := by
  apply firstOffence_of_node ordered _ refused
  intro name items rest same item member failed
  have inside : (∀ item ∈ items, item.Ordered) ∧ ∀ item ∈ rest, item.Ordered := by
    simpa [same] using ordered
  exact firstOffence_of_decodeSelection (inside.1 item member) failed
termination_by sizeOf json
decreasing_by
  have smaller := List.sizeOf_lt_of_mem member
  rw [same]
  simp only [Json.array.sizeOf_spec, List.cons.sizeOf_spec]
  omega

theorem firstOffence_of_decode {json : Json} (ordered : json.Ordered) {error : ShapeError}
    (refused : decode json = .error error) :
    ∃ offence, First (QueryOffends json) offence ∧ error = ⟨offence.names, offence.fault⟩ := by
  unfold decode at refused
  split at refused
  · next items =>
      have inside : ∀ item ∈ items, item.Ordered := by simpa using ordered
      have departures (other : Offence) : QueryOffends (.array items) other ↔
          ∃ index item inner, items[index]? = some item ∧ Offends item inner ∧
            other = inner.within [] index := by
        constructor
        · intro departs
          cases departs with
          | query notList => exact absurd rfl (notList _)
          | nested found offends => exact ⟨_, _, _, found, offends, rfl⟩
        · intro inside
          obtain ⟨index, item, inner, found, offends, rfl⟩ := inside
          exact .nested found offends
      have failed : decodeSelections ([] ++ []) _ = .error error := refused
      exact firstOffence_of_decodeSelections departures
        (fun item member failed => firstOffence_of_decodeSelection (inside item member) failed)
        failed
  · next notList =>
      cases refused
      refine ⟨_, ⟨.query notList, ?_⟩, rfl⟩
      intro other departs
      cases departs with
      | query => exact .inl rfl
      | nested => exact absurd rfl (notList _)

theorem decode_eq_error_iff {json : Json} (ordered : json.Ordered) {error : ShapeError} :
    decode json = .error error ↔
      ∃ offence, First (QueryOffends json) offence ∧ error = ⟨offence.names, offence.fault⟩ := by
  constructor
  · exact firstOffence_of_decode ordered
  · intro departure
    obtain ⟨offence, first, rfl⟩ := departure
    cases decoded : decode json with
    | ok selections => exact absurd (queryForm_iff.mp ⟨_, decoded⟩) first.departs.not_form
    | error other =>
        obtain ⟨found, alsoFirst, rfl⟩ := firstOffence_of_decode ordered decoded
        rw [first.unique alsoFirst]

end FieldQuery.Interchange

namespace FieldQuery.Query

theorem Path.text_eq (path : Path) :
    path.text = if path = [] then "(root)" else ".".intercalate path := by
  cases path with
  | nil => rfl
  | cons name names => rfl

end FieldQuery.Query

namespace FieldQuery.Execution

open Query Interchange

/-- The error of reading a JSON value as a query names the first of all departures of the value
from the interchange form, with the branches around it and what is wrong there. Executing the
value on a graph gives this error from any state, leaves the state and makes no call. -/
theorem refused_firstOffence {json : Json} (ordered : json.Ordered) (error : ShapeError) :
    (decode json = .error error ↔
      ∃ offence, First (QueryOffends json) offence ∧ error = ⟨offence.names, offence.fault⟩) ∧
    (decode json = .error error →
      (ExecutionError.malformedQuery error).message =
        (if error.path = [] then "(root)" else ".".intercalate error.path) ++
          " incorrect data type: " ++ error.fault.reason ∧
      ∀ {State Node : Type} (graph : DataGraph State Node) (limit : DepthLimit) (root : Node)
        (before : State),
        (executeInterchange graph limit json root).outcome before =
          (.error (.malformedQuery error), before) ∧
        ∀ events,
          (executeInterchange graph.observing limit json (.root root)).outcome (before, events) =
            (.error (.malformedQuery error), (before, events))) := by
  refine ⟨decode_eq_error_iff ordered, ?_⟩
  intro refused
  refine ⟨?_, ?_⟩
  · rw [← Path.text_eq]
    rfl
  · intro State Node graph limit root before
    simp only [executeInterchange, refused]
    exact ⟨rfl, fun events => rfl⟩

/-- A query form that departs in its third selection, and behind it in other places. -/
def offendingForm : Json :=
  .array [.string "version", .array [.string "old", .array [.string "id"]],
    .array [.string "films",
      .array [.string "id", .array [.string "comments", .array [.null],
        .object [("p", .number (.ofUInt64 18446744073709551615)), ("q", .null)]]],
      .object [("first", .string "1")]],
    .array []]

theorem refused_offendingForm :
    let error : ShapeError := ⟨["films", "comments"], .argumentNotInteger "p"⟩
    offendingForm.Ordered ∧ decode offendingForm = .error error ∧
      (∃ offence, First (QueryOffends offendingForm) offence ∧
        error = ⟨offence.names, offence.fault⟩) ∧
      (ExecutionError.malformedQuery error).message =
        "films.comments incorrect data type: argument 'p' must be an integer" := by
  intro error
  have ascending : Entries.Ascending
      [("p", Json.number (.ofUInt64 18446744073709551615)), ("q", .null)] :=
    List.pairwise_pair.mpr (by decide)
  have single : Entries.Ascending [("first", Json.string "1")] := List.pairwise_singleton _ _
  have ordered : offendingForm.Ordered := by simp [offendingForm, ascending, single]
  have refused : decode offendingForm = .error error := rfl
  obtain ⟨isFirst, executed⟩ := refused_firstOffence ordered error
  exact ⟨ordered, refused, isFirst.mp refused, (executed refused).1.trans rfl⟩

end FieldQuery.Execution
