import FieldQuery.Proofs.Interchange.RoundTrip
import FieldQuery.Proofs.Json.Ordered

/-!
# The documented interchange form

A JSON value is read as a query exactly when it has the documented form: a list of strings, for
leaves, and of lists with a name, a list of the same form and perhaps an object of strings and
signed 64-bit integers, for branches. Reading forgets only whether a branch has no object or an
empty one.
-/

set_option autoImplicit false

namespace FieldQuery.Interchange

open Query Fallible

/-- The documented form of an argument: a string, or an integer of the signed 64-bit range. -/
inductive ArgumentForm : Json → Prop where
  | text {value : String} : ArgumentForm (.string value)
  | integer {value : Int} {fits : Numeric.InInt64 value ∨ Numeric.InUInt64 value}
      (signed : Numeric.InInt64 value) : ArgumentForm (.number (.integer value fits))

inductive SelectionForm : Json → Prop where
  | leaf {name : String} : SelectionForm (.string name)
  | branch {name : String} {items : List Json} (nested : ∀ item ∈ items, SelectionForm item) :
      SelectionForm (.array [.string name, .array items])
  | called {name : String} {items : List Json} {members : List (String × Json)}
      (nested : ∀ item ∈ items, SelectionForm item)
      (arguments : ∀ member ∈ members, ArgumentForm member.2) :
      SelectionForm (.array [.string name, .array items, .object members])

def QueryForm (json : Json) : Prop :=
  ∃ items, json = .array items ∧ ∀ item ∈ items, SelectionForm item

mutual

def trimSelection : Json → Json
  | .array [name, .array items] => .array [name, .array (trimSelections items)]
  | .array [name, .array items, .object []] => .array [name, .array (trimSelections items)]
  | .array [name, .array items, .object members] =>
      .array [name, .array (trimSelections items), .object members]
  | json => json

def trimSelections : List Json → List Json
  | [] => []
  | item :: rest => trimSelection item :: trimSelections rest

end

/-- The JSON value of a query without the objects of arguments that are empty. -/
def trim : Json → Json
  | .array items => .array (trimSelections items)
  | json => json

theorem argumentForm_iff {path : Path} {key : String} {json : Json} :
    ArgumentForm json ↔ ∃ value, decodeArgument path key json = .ok value := by
  constructor
  · intro form
    cases form with
    | @text value => exact ⟨.text value, rfl⟩
    | @integer value fits signed =>
        refine ⟨.integer (Int64.ofInt value), ?_⟩
        rw [decodeArgument, Json.Number.int64?, if_pos signed]
  · rintro ⟨value, decoded⟩
    cases json with
    | string text => exact .text
    | number number =>
        cases number with
        | integer number fits =>
            by_cases signed : Numeric.InInt64 number
            · exact .integer signed
            · rw [decodeArgument, Json.Number.int64?, if_neg signed] at decoded
              cases decoded
        | float => cases decoded
    | null => cases decoded
    | boolean => cases decoded
    | array => cases decoded
    | object => cases decoded

theorem encodeArgument_of_decodeArgument {path : Path} {key : String} {json : Json}
    {value : ArgumentValue} (decoded : decodeArgument path key json = .ok value) :
    encodeArgument value = json := by
  cases argumentForm_iff.mpr ⟨value, decoded⟩ with
  | text =>
      cases decoded
      rfl
  | @integer number fits signed =>
      rw [decodeArgument, Json.Number.int64?, if_pos signed] at decoded
      cases decoded
      have inRange : -9223372036854775808 ≤ number ∧ number ≤ 9223372036854775807 := signed
      have kept : (Int64.ofInt number).toInt = number :=
        Int64.toInt_ofInt_of_le (by omega) (by omega)
      simp only [encodeArgument, Json.Number.ofInt64, kept]

theorem decodeMember_eq_ok_iff {path : Path} {member : String × Json}
    {pair : String × ArgumentValue} :
    (do return (member.1, ← decodeArgument path member.1 member.2) :
        Except ShapeError (String × ArgumentValue)) = .ok pair ↔
      ∃ value, decodeArgument path member.1 member.2 = .ok value ∧ pair = (member.1, value) := by
  rw [bind_eq_ok_iff]
  apply exists_congr
  intro value
  apply and_congr_right
  intro _
  constructor
  · rintro ⟨rfl⟩
    rfl
  · rintro rfl
    rfl

theorem exists_decodeArguments_iff {path : Path} {members : List (String × Json)} :
    (∃ arguments, decodeArguments path members = .ok arguments) ↔
      ∀ member ∈ members, ArgumentForm member.2 := by
  have collected : (∃ arguments, decodeArguments path members = .ok arguments) ↔
      ∃ pairs, members.mapM (fun member => do
        return (member.1, ← decodeArgument path member.1 member.2)) = .ok pairs := by
    constructor
    · rintro ⟨arguments, decoded⟩
      obtain ⟨pairs, read, _⟩ := bind_eq_ok_iff.mp decoded
      exact ⟨pairs, read⟩
    · rintro ⟨pairs, read⟩
      exact ⟨.ofList pairs, bind_eq_ok_iff.mpr ⟨pairs, read, rfl⟩⟩
  rw [collected, exists_mapM_eq_ok_iff]
  apply forall₂_congr
  intro member _
  have form : ArgumentForm member.2 ↔
      ∃ value, decodeArgument path member.1 member.2 = .ok value := argumentForm_iff
  rw [form]
  constructor
  · intro ⟨pair, decoded⟩
    obtain ⟨value, given, _⟩ := decodeMember_eq_ok_iff.mp decoded
    exact ⟨value, given⟩
  · intro ⟨value, decoded⟩
    exact ⟨_, decodeMember_eq_ok_iff.mpr ⟨value, decoded, rfl⟩⟩

/-- Arguments that were read from an object with ascending keys are written as that object. -/
theorem encodeArguments_of_decodeArguments {path : Path} {members : List (String × Json)}
    (ascending : Entries.Ascending members) {arguments : Arguments}
    (decoded : decodeArguments path members = .ok arguments) :
    encodeArguments arguments = members := by
  obtain ⟨pairs, read, returned⟩ := bind_eq_ok_iff.mp decoded
  cases returned
  have written : pairs.map (fun pair => (pair.1, encodeArgument pair.2)) = members := by
    apply map_eq_of_mapM_eq_ok _ read
    intro member pair stepped
    obtain ⟨value, given, rfl⟩ := decodeMember_eq_ok_iff.mp stepped
    rw [encodeArgument_of_decodeArgument given]
  have ordered : Entries.Ascending pairs := by
    rw [← written, Entries.Ascending, List.pairwise_map] at ascending
    exact ascending
  have entries : (Dict.ofList pairs).entries = pairs := ordered.collect_eq
  rw [encodeArguments, entries]
  exact written

inductive ReadAs (path : Path) : Json → Selection → Prop where
  | leaf {name : String} : ReadAs path (.string name) (.leaf name)
  | branch {name : String} {items : List Json} {selections : List Selection}
      (nested : decodeSelections (path ++ [name]) items = .ok selections) :
      ReadAs path (.array [.string name, .array items]) (.branch name .empty selections)
  | called {name : String} {items : List Json} {members : List (String × Json)}
      {arguments : Arguments} {selections : List Selection}
      (given : decodeArguments (path ++ [name]) members = .ok arguments)
      (nested : decodeSelections (path ++ [name]) items = .ok selections) :
      ReadAs path (.array [.string name, .array items, .object members])
        (.branch name arguments selections)

theorem decodeSelection_eq_ok_iff {path : Path} {json : Json} {selection : Selection} :
    decodeSelection path json = .ok selection ↔ ReadAs path json selection := by
  constructor
  · intro decoded
    unfold decodeSelection at decoded
    split at decoded
    · cases decoded
      exact .leaf
    · obtain ⟨selections, nested, returned⟩ := bind_eq_ok_iff.mp decoded
      cases returned
      exact .branch nested
    · obtain ⟨arguments, given, decoded⟩ := bind_eq_ok_iff.mp decoded
      obtain ⟨selections, nested, returned⟩ := bind_eq_ok_iff.mp decoded
      cases returned
      exact .called given nested
    all_goals cases decoded
  · intro read
    cases read with
    | leaf => rw [decodeSelection]
    | branch nested =>
        rw [decodeSelection, nested]
        rfl
    | called given nested =>
        rw [decodeSelection, given, nested]
        rfl

theorem decodeSelections_cons_eq_ok_iff {path : Path} {item : Json} {rest : List Json}
    {selections : List Selection} :
    decodeSelections path (item :: rest) = .ok selections ↔
      ∃ first others, selections = first :: others ∧ decodeSelection path item = .ok first ∧
        decodeSelections path rest = .ok others := by
  rw [decodeSelections]
  constructor
  · intro decoded
    obtain ⟨first, one, decoded⟩ := bind_eq_ok_iff.mp decoded
    obtain ⟨others, remaining, returned⟩ := bind_eq_ok_iff.mp decoded
    cases returned
    exact ⟨first, others, rfl, one, remaining⟩
  · rintro ⟨first, others, rfl, one, remaining⟩
    rw [one, remaining]
    rfl

theorem exists_decodeSelections {path : Path} {items : List Json}
    (each : ∀ item ∈ items, ∃ selection, decodeSelection path item = .ok selection) :
    ∃ selections, decodeSelections path items = .ok selections := by
  induction items with
  | nil => exact ⟨[], by rw [decodeSelections]⟩
  | cons item rest ih =>
      obtain ⟨⟨first, one⟩, later⟩ := List.forall_mem_cons.mp each
      obtain ⟨others, remaining⟩ := ih later
      exact ⟨first :: others, decodeSelections_cons_eq_ok_iff.mpr ⟨_, _, rfl, one, remaining⟩⟩

/-- What has the documented form can be read, wherever it stands. -/
theorem SelectionForm.decodes {json : Json} (form : SelectionForm json) (path : Path) :
    ∃ selection, decodeSelection path json = .ok selection := by
  induction form generalizing path with
  | leaf => exact ⟨_, decodeSelection_eq_ok_iff.mpr .leaf⟩
  | @branch name items _ ih =>
      obtain ⟨selections, nested⟩ :=
        exists_decodeSelections fun item member => ih item member (path ++ [name])
      exact ⟨_, decodeSelection_eq_ok_iff.mpr (.branch nested)⟩
  | @called name items members _ arguments ih =>
      obtain ⟨selections, nested⟩ :=
        exists_decodeSelections fun item member => ih item member (path ++ [name])
      obtain ⟨values, given⟩ := exists_decodeArguments_iff.mpr arguments
      exact ⟨_, decodeSelection_eq_ok_iff.mpr (.called given nested)⟩

mutual

/-- What can be read has the documented form. -/
theorem selectionForm_of_decode {path : Path} {json : Json} (selection : Selection)
    (decoded : decodeSelection path json = .ok selection) : SelectionForm json := by
  have read := decodeSelection_eq_ok_iff.mp decoded
  match selection with
  | .leaf name =>
      cases read
      exact .leaf
  | .branch name arguments selections =>
      cases read with
      | branch nested => exact .branch (selectionForms_of_decode selections nested)
      | called given nested =>
          exact .called (selectionForms_of_decode selections nested)
            (exists_decodeArguments_iff.mp ⟨arguments, given⟩)

theorem selectionForms_of_decode {path : Path} {items : List Json} (selections : List Selection)
    (decoded : decodeSelections path items = .ok selections) :
    ∀ item ∈ items, SelectionForm item := by
  match items, selections with
  | [], _ => exact nofun
  | item :: rest, [] =>
      obtain ⟨first, others, different, _⟩ := decodeSelections_cons_eq_ok_iff.mp decoded
      cases different
  | item :: rest, selection :: selections =>
      obtain ⟨first, others, same, one, remaining⟩ := decodeSelections_cons_eq_ok_iff.mp decoded
      cases same
      exact List.forall_mem_cons.mpr
        ⟨selectionForm_of_decode selection one, selectionForms_of_decode selections remaining⟩

end

/-- A branch without arguments is written without an object of arguments. -/
theorem encodeSelection_branch {name : String} {arguments : Arguments}
    {selections : List Selection} {items : List Json} {members : List (String × Json)}
    (nested : encodeSelections selections = trimSelections items)
    (given : encodeArguments arguments = members) :
    encodeSelection (.branch name arguments selections) =
      trimSelection (.array [.string name, .array items, .object members]) := by
  subst given
  obtain ⟨entries, ascending⟩ := arguments
  rw [encodeSelection, nested]
  cases entries <;> rfl

mutual

/-- What was read is written as the JSON value that it was read from, without empty objects. -/
theorem encodeSelection_of_decode {path : Path} {json : Json} (selection : Selection)
    (ordered : json.Ordered) (decoded : decodeSelection path json = .ok selection) :
    encodeSelection selection = trimSelection json := by
  have read := decodeSelection_eq_ok_iff.mp decoded
  match selection with
  | .leaf name =>
      cases read
      rfl
  | .branch name arguments selections =>
      cases read with
      | @branch _ items _ nested =>
          have inside : ∀ item ∈ items, item.Ordered := by simpa using ordered
          have written := encodeSelections_of_decode selections inside nested
          exact encodeSelection_branch written rfl
      | @called _ items members _ _ given nested =>
          have both : (∀ item ∈ items, item.Ordered) ∧ Entries.Ascending members ∧
              ∀ member ∈ members, member.2.Ordered := by simpa using ordered
          obtain ⟨inside, ascending, _⟩ := both
          have written := encodeSelections_of_decode selections inside nested
          exact encodeSelection_branch written
            (encodeArguments_of_decodeArguments ascending given)

theorem encodeSelections_of_decode {path : Path} {items : List Json} (selections : List Selection)
    (ordered : ∀ item ∈ items, item.Ordered)
    (decoded : decodeSelections path items = .ok selections) :
    encodeSelections selections = trimSelections items := by
  match items, selections with
  | [], _ =>
      rw [decodeSelections] at decoded
      cases decoded
      rfl
  | item :: rest, [] =>
      obtain ⟨first, others, different, _⟩ := decodeSelections_cons_eq_ok_iff.mp decoded
      cases different
  | item :: rest, selection :: selections =>
      obtain ⟨first, others, same, one, remaining⟩ := decodeSelections_cons_eq_ok_iff.mp decoded
      cases same
      obtain ⟨orderedFirst, orderedRest⟩ := List.forall_mem_cons.mp ordered
      rw [encodeSelections, trimSelections, encodeSelection_of_decode selection orderedFirst one,
        encodeSelections_of_decode selections orderedRest remaining]

end

theorem decode_eq_ok_iff {json : Json} {selections : List Selection} :
    decode json = .ok selections ↔
      ∃ items, json = .array items ∧ decodeSelections [] items = .ok selections := by
  constructor
  · intro decoded
    cases json with
    | array items => exact ⟨items, rfl, decoded⟩
    | null => cases decoded
    | boolean => cases decoded
    | number => cases decoded
    | string => cases decoded
    | object => cases decoded
  · rintro ⟨items, rfl, decoded⟩
    exact decoded

theorem queryForm_iff {json : Json} :
    (∃ selections, decode json = .ok selections) ↔ QueryForm json := by
  constructor
  · rintro ⟨selections, decoded⟩
    obtain ⟨items, rfl, decoded⟩ := decode_eq_ok_iff.mp decoded
    exact ⟨items, rfl, selectionForms_of_decode selections decoded⟩
  · rintro ⟨items, rfl, forms⟩
    exact exists_decodeSelections fun item member => (forms item member).decodes []

theorem encode_of_decode {json : Json} {selections : List Selection} (ordered : json.Ordered)
    (decoded : decode json = .ok selections) : encode selections = trim json := by
  obtain ⟨items, rfl, decoded⟩ := decode_eq_ok_iff.mp decoded
  rw [encode, trim,
    encodeSelections_of_decode selections (Json.ordered_array_iff.mp ordered) decoded]

/-- A JSON value is read as a query exactly when it has the documented form. The query is written
as the value itself without its empty objects of arguments. Writing it once more changes nothing,
and the other values that are read as the same query are those that differ by such objects. -/
theorem decode_iff_documentedForm (json : Json) :
    ((∃ selections, decode json = .ok selections) ↔ QueryForm json) ∧
      (json.Ordered → ∀ selections, decode json = .ok selections →
        encode selections = trim json ∧
        (decode (encode selections)).map encode = .ok (encode selections) ∧
        ∀ other : Json, other.Ordered →
          (decode other = .ok selections ↔ QueryForm other ∧ trim other = trim json)) := by
  refine ⟨queryForm_iff, ?_⟩
  intro ordered selections decoded
  have written := encode_of_decode ordered decoded
  refine ⟨written, by rw [decode_encode]; rfl, ?_⟩
  intro other otherOrdered
  constructor
  · intro otherDecoded
    exact ⟨queryForm_iff.mp ⟨selections, otherDecoded⟩,
      (encode_of_decode otherOrdered otherDecoded).symm.trans written⟩
  · rintro ⟨form, same⟩
    obtain ⟨others, otherDecoded⟩ := queryForm_iff.mpr form
    have alike : encode others = encode selections :=
      (encode_of_decode otherOrdered otherDecoded).trans (same.trans written.symm)
    have back := decode_encode others
    rw [alike, decode_encode] at back
    cases back
    exact otherDecoded

/-- The form of a query, with what may follow the selections of one of its branches. -/
def nestedForm (further : List Json) : Json :=
  .array [.string "version", .array [.string "films",
    .array [.array ([.string "comments", .array []] ++ further), .string "id"],
    .object [("count", .number (.ofInt64 (-3))), ("q", .string "1")]]]

theorem decode_nestedForm :
    let films : Selection := .branch "films" (.ofList [("count", .integer (-3)), ("q", .text "1")])
      [.branch "comments" .empty [], .leaf "id"]
    QueryForm (nestedForm [.object []]) ∧
      encode [.leaf "version", films] = trim (nestedForm [.object []]) ∧
      trim (nestedForm [.object []]) = nestedForm [] ∧
      decode (nestedForm []) = .ok [.leaf "version", films] ∧
      ¬ QueryForm (nestedForm [.object [("p", .null)]]) := by
  intro films
  have ascending : Entries.Ascending
      [("count", Json.number (.ofInt64 (-3))), ("q", Json.string "1")] :=
    List.pairwise_pair.mpr (by decide)
  have noMembers : Entries.Ascending ([] : List (String × Json)) := .nil
  have withObject : (nestedForm [.object []]).Ordered := by simp [nestedForm, ascending, noMembers]
  have without : (nestedForm []).Ordered := by simp [nestedForm, ascending]
  have decoded : decode (nestedForm [.object []]) = .ok [.leaf "version", films] := rfl
  obtain ⟨form, unique⟩ := decode_iff_documentedForm (nestedForm [.object []])
  obtain ⟨written, _, others⟩ := unique withObject _ decoded
  obtain ⟨formWithout, _⟩ := decode_iff_documentedForm (nestedForm [])
  have isForm : QueryForm (nestedForm []) := formWithout.mp ⟨[.leaf "version", films], rfl⟩
  refine ⟨form.mp ⟨_, decoded⟩, written, rfl, (others _ without).mpr ⟨isForm, rfl⟩, ?_⟩
  rw [← (decode_iff_documentedForm (nestedForm [.object [("p", .null)]])).1]
  rintro ⟨selections, accepted⟩
  cases accepted

end FieldQuery.Interchange
