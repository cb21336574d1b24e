import FieldQuery.Proofs.Json.Ordered
import FieldQuery.Proofs.Text.ByteOrder
import FieldQuery.Proofs.Value.Conversion
import FieldQuery.Report
import Mathlib.Tactic.Choose

/-!
# Texts of values

A library that keeps its promises makes the same text of a value as of the JSON value of it. It
refuses no value, is told null in place of floating-point numbers that are not finite, and is told
the members of objects in ascending order of the bytes of their keys.
-/

set_option autoImplicit false

namespace FieldQuery

open Numeric Json

variable {Part Error : Type}

/-! ## Promises of a library -/

/-- What a library promises of a layout. Its writer refuses nothing and takes numbers that are not
finite for null. JSON values are printed like other data of the same content; the members of an
object are a map, so they are given in ascending order of their keys. -/
structure Json.Printer.Documented (printer : Printer Part Error) : Prop where
  null_ok : ∃ part, printer.writer.null = .ok part
  boolean_ok : ∀ value, ∃ part, printer.writer.boolean value = .ok part
  integer_ok : ∀ value, ∃ part, printer.writer.integer value = .ok part
  float_ok : ∀ value, ∃ part, printer.writer.float value = .ok part
  string_ok : ∀ value, ∃ part, printer.writer.string value = .ok part
  sequence_ok : ∀ items, ∃ part, printer.writer.sequence items = .ok part
  mapping_ok : ∀ members, ∃ part, printer.writer.mapping members = .ok part
  infinite_float : ∀ value, value.isFinite = false →
    printer.writer.float value = printer.writer.null
  tree_null : printer.tree .null = printer.writer.null
  tree_boolean : ∀ value, printer.tree (.boolean value) = printer.writer.boolean value
  tree_integer : ∀ value, printer.tree (.number (.ofInt64 value)) = printer.writer.integer value
  tree_float : ∀ value finite,
    printer.tree (.number (.float value finite)) = printer.writer.float value
  tree_string : ∀ value, printer.tree (.string value) = printer.writer.string value
  tree_array : ∀ items,
    printer.tree (.array items) = items.mapM printer.tree >>= printer.writer.sequence
  tree_object : ∀ members, Entries.Ascending members →
    printer.tree (.object members) =
      (members.mapM fun (key, value) => return (key, ← printer.tree value)) >>=
        printer.writer.mapping

structure Json.Library.Documented (library : Library Part Error) : Prop where
  compact : library.compact.Documented
  spread : library.spread.Documented
  display : ∀ json : Json, json.write library.compact = .ok (library.display json)

theorem mapM_ok {α β : Type} {each : α → Except Error β} {result : α → β} {values : List α}
    (succeeds : ∀ value ∈ values, each value = .ok (result value)) :
    values.mapM each = .ok (values.map result) := by
  induction values with
  | nil => rfl
  | cons value rest ih =>
      obtain ⟨first, others⟩ := List.forall_mem_cons.mp succeeds
      rw [List.mapM_cons, first, ih others]
      rfl

theorem mapM_map_ok {α β γ : Type} {each : β → Except Error γ} {change : α → β}
    {result : α → γ} {values : List α}
    (succeeds : ∀ value ∈ values, each (change value) = .ok (result value)) :
    (values.map change).mapM each = .ok (values.map result) := by
  rw [List.mapM_map]
  exact mapM_ok succeeds

/-! ## Values -/

namespace Value

/-- A value whose objects are maps: their keys ascend, so none occurs twice. -/
inductive Ordered : Value → Prop where
  | null : Ordered .null
  | boolean {value : Bool} : Ordered (.boolean value)
  | integer {value : Int64} : Ordered (.integer value)
  | float {value : Binary64} : Ordered (.float value)
  | string {value : String} : Ordered (.string value)
  | array {items : List Value} (each : ∀ item ∈ items, Ordered item) : Ordered (.array items)
  | object {members : List (String × Value)} (ascending : Entries.Ascending members)
      (each : ∀ member ∈ members, Ordered member.2) : Ordered (.object members)

theorem Ordered.ofDict {members : Dict Value}
    (each : ∀ member ∈ members.entries, member.2.Ordered) : (Value.ofDict members).Ordered :=
  .object members.ascending each

theorem Ordered.toJson {value : Value} (ordered : value.Ordered) : value.toJson.Ordered := by
  induction ordered with
  | null => exact .null
  | boolean => exact .boolean
  | integer => exact .number
  | string => exact .string
  | float =>
      rw [Value.toJson]
      split
      · exact .number
      · exact .null
  | array _ ih =>
      rw [toJson_array]
      exact .array (List.forall_mem_map.mpr ih)
  | object ascending _ ih =>
      rw [toJson_object]
      exact .object (List.pairwise_map.mpr ascending) (List.forall_mem_map.mpr ih)

/-- A writer makes a part of what it is told about a value: null of a number that is not finite,
and of an object its members in ascending order of the bytes of their keys. -/
inductive Told (writer : Json.Writer Part Error) : Value → Part → Prop where
  | null {part : Part} (made : writer.null = .ok part) : Told writer .null part
  | boolean {value : Bool} {part : Part} (made : writer.boolean value = .ok part) :
      Told writer (.boolean value) part
  | integer {value : Int64} {part : Part} (made : writer.integer value = .ok part) :
      Told writer (.integer value) part
  | finite {value : Binary64} {part : Part} (finite : value.isFinite = true)
      (made : writer.float value = .ok part) : Told writer (.float value) part
  | infinite {value : Binary64} {part : Part} (infinite : value.isFinite = false)
      (made : writer.null = .ok part) : Told writer (.float value) part
  | string {value : String} {part : Part} (made : writer.string value = .ok part) :
      Told writer (.string value) part
  | array {items : List Value} {parts : Value → Part} {part : Part}
      (each : ∀ item ∈ items, Told writer item (parts item))
      (made : writer.sequence (items.map parts) = .ok part) : Told writer (.array items) part
  | object {members : List (String × Value)} {parts : String × Value → Part} {part : Part}
      (ascending : members.Pairwise fun earlier later =>
        Text.bytes earlier.1 < Text.bytes later.1)
      (each : ∀ member ∈ members, Told writer member.2 (parts member))
      (made : writer.mapping (members.map fun member => (member.1, parts member)) = .ok part) :
      Told writer (.object members) part

theorem tell_array (writer : Json.Writer Part Error) (items : List Value) :
    tell writer (.array items) = items.mapM (tell writer) >>= writer.sequence := by
  have each : tellItems writer items = items.mapM (tell writer) := by
    induction items with
    | nil => rfl
    | cons item rest ih => rw [tellItems, ih, List.mapM_cons]
  rw [tell, each]

theorem tell_object (writer : Json.Writer Part Error) (members : List (String × Value)) :
    tell writer (.object members) =
      (members.mapM fun (name, value) => return (name, ← tell writer value)) >>=
        writer.mapping := by
  have each : tellMembers writer members =
      members.mapM fun (name, value) => return (name, ← tell writer value) := by
    induction members with
    | nil => rfl
    | cons member rest ih =>
        rw [tellMembers, ih, List.mapM_cons]
        simp
  rw [tell, each]

section

variable {printer : Printer Part Error} (documented : printer.Documented)
include documented

theorem told_float (value : Binary64) :
    ∃ part, tell printer.writer (.float value) = .ok part ∧
      printer.tree (toJson (.float value)) = .ok part ∧
      Told printer.writer (.float value) part := by
  obtain ⟨part, made⟩ := documented.float_ok value
  refine ⟨part, made, ?_⟩
  rw [toJson]
  split
  · next finite => exact ⟨(documented.tree_float value finite).trans made, .finite finite made⟩
  · next notFinite =>
      have infinite := Bool.eq_false_iff.mpr notFinite
      have null := (documented.infinite_float value infinite).symm.trans made
      exact ⟨documented.tree_null.trans null, .infinite infinite null⟩

/-- A writer makes the same part of a value as is made of its JSON value. -/
theorem Ordered.told {value : Value} (ordered : value.Ordered) :
    ∃ part, value.tell printer.writer = .ok part ∧ printer.tree value.toJson = .ok part ∧
      Told printer.writer value part := by
  obtain ⟨null, isNull⟩ := documented.null_ok
  have : Nonempty Part := ⟨null⟩
  induction ordered with
  | null => exact ⟨null, isNull, documented.tree_null.trans isNull, .null isNull⟩
  | @boolean value =>
      obtain ⟨part, made⟩ := documented.boolean_ok value
      exact ⟨part, made, (documented.tree_boolean value).trans made, .boolean made⟩
  | @integer value =>
      obtain ⟨part, made⟩ := documented.integer_ok value
      exact ⟨part, made, (documented.tree_integer value).trans made, .integer made⟩
  | @float value => exact told_float documented value
  | @string value =>
      obtain ⟨part, made⟩ := documented.string_ok value
      exact ⟨part, made, (documented.tree_string value).trans made, .string made⟩
  | @array items _ ih =>
      choose! parts tells prints each using ih
      obtain ⟨part, made⟩ := documented.sequence_ok (items.map parts)
      refine ⟨part, ?_, ?_, .array each made⟩
      · rw [tell_array, mapM_ok tells]
        exact made
      · rw [toJson_array, documented.tree_array, mapM_map_ok prints]
        exact made
  | @object members ascending _ ih =>
      choose! parts tells prints each using ih
      obtain ⟨part, made⟩ :=
        documented.mapping_ok (members.map fun member => (member.1, parts member))
      have inBytes := ascending.imp Text.lt_iff_bytes_lt.mp
      refine ⟨part, ?_, ?_, .object inBytes each made⟩
      · have entries : ∀ member ∈ members,
            (do return (member.1, ← tell printer.writer member.2)) =
              Except.ok (member.1, parts member) := by
          intro member among
          rw [tells member among]
          rfl
        rw [tell_object, mapM_ok entries]
        exact made
      · have entries : ∀ member ∈ members,
            (do return (member.1, ← printer.tree member.2.toJson)) =
              Except.ok (member.1, parts member) := by
          intro member among
          rw [prints member among]
          rfl
        have same : Entries.Ascending (members.map fun member => (member.1, member.2.toJson)) :=
          List.pairwise_map.mpr ascending
        rw [toJson_object, documented.tree_object _ same, mapM_map_ok entries]
        exact made

theorem Ordered.written {value : Value} (ordered : value.Ordered) :
    ∃ part, Told printer.writer value part ∧ value.write printer = .ok (printer.text part) ∧
      value.toJson.write printer = .ok (printer.text part) := by
  obtain ⟨part, tells, prints, told⟩ := ordered.told documented
  refine ⟨part, told, ?_, ?_⟩
  · rw [Value.write, tells]
    rfl
  · rw [Json.write, prints]
    rfl

end

end Value

/-! ## The library of the program -/

theorem Json.render_array (layout : Layout) (level : Nat) (items : List Json) :
    render layout level (.array items) =
      layout.list level (items.map (render layout (level + 1))) :=
  congrArg (layout.list level)
    (eq_map_of_cons (render layout (level + 1)) rfl (fun _ _ => rfl) items)

theorem Json.render_object (layout : Layout) (level : Nat) (members : List (String × Json)) :
    render layout level (.object members) =
      layout.object level
        (members.map fun member => layout.member member.1 (render layout (level + 1) member.2)) := by
  have each : renderMembers layout (level + 1) members =
      members.map fun member => layout.member member.1 (render layout (level + 1) member.2) := by
    induction members with
    | nil => rfl
    | cons member rest ih => rw [renderMembers, ih, List.map_cons]
  rw [render, each]

theorem Json.Layout.documented_printer (layout : Layout) : layout.printer.Documented where
  null_ok := ⟨_, rfl⟩
  boolean_ok _ := ⟨_, rfl⟩
  integer_ok _ := ⟨_, rfl⟩
  float_ok _ := ⟨_, rfl⟩
  string_ok _ := ⟨_, rfl⟩
  sequence_ok _ := ⟨_, rfl⟩
  mapping_ok _ := ⟨_, rfl⟩
  infinite_float value infinite := by
    simp [printer, writer, infinite]
  tree_null := rfl
  tree_boolean _ := rfl
  tree_integer _ := rfl
  tree_float value finite := by
    simp [printer, writer, render, Number.text, finite]
  tree_string _ := rfl
  tree_array items := by
    have each : items.mapM layout.printer.tree =
        .ok (items.map fun item level => item.render layout level) := mapM_ok fun _ _ => rfl
    rw [each]
    refine congrArg Except.ok (funext fun level => ?_)
    rw [render_array, List.map_map]
    rfl
  tree_object members _ := by
    have each : (members.mapM fun (key, value) =>
          return (key, ← layout.printer.tree value)) =
        .ok (members.map fun member => (member.1, fun level => member.2.render layout level)) :=
      mapM_ok fun _ _ => rfl
    rw [each]
    refine congrArg Except.ok (funext fun level => ?_)
    rw [render_object, List.map_map]
    rfl

theorem Json.documented_library : library.Documented where
  compact := Layout.compact.documented_printer
  spread := Layout.spread.documented_printer
  display _ := rfl

/-- A library that keeps its promises makes one text of a value and of its JSON value, in both
layouts, and a report fails only for an error. -/
theorem Value.texts_agree {library : Library Part Error} (documented : library.Documented) :
    (∀ value : Value, value.Ordered → value.toJson.Ordered ∧
      ∀ printer, printer = library.compact ∨ printer = library.spread →
        ∃ part, Told printer.writer value part ∧ value.write printer = .ok (printer.text part) ∧
          value.toJson.write printer = .ok (printer.text part)) ∧
    (∀ value : Value, value.Ordered → ∃ text,
      value.toJson.write library.compact = .ok text ∧
        Report.ofOutcome library (.ok value) = ⟨text, false⟩) ∧
    (∀ message, ∃ text,
      (Json.object [("errors", .array [.string message])]).write library.compact = .ok text ∧
        Report.ofOutcome library (.error message) = ⟨text, true⟩) ∧
    ∀ outcome, (∀ value : Value, outcome = .ok value → value.Ordered) →
      ((Report.ofOutcome library outcome).failed = true ↔ ∃ message, outcome = .error message) := by
  have reported (value : Value) (ordered : value.Ordered) :
      ∃ text, value.toJson.write library.compact = .ok text ∧
        Report.ofOutcome library (.ok value) = ⟨text, false⟩ := by
    obtain ⟨part, _, written, same⟩ := ordered.written documented.compact
    refine ⟨_, same, ?_⟩
    rw [Report.ofOutcome, written]
  refine ⟨fun value ordered => ⟨ordered.toJson, ?_⟩, reported, ?_, ?_⟩
  · rintro printer (rfl | rfl)
    · exact ordered.written documented.compact
    · exact ordered.written documented.spread
  · intro message
    exact ⟨_, documented.display _, rfl⟩
  · intro outcome ofOrdered
    cases outcome with
    | error message => exact iff_of_true rfl ⟨message, rfl⟩
    | ok value =>
        obtain ⟨text, _, report⟩ := reported value (ofOrdered value rfl)
        rw [report]
        exact iff_of_false nofun nofun

def Value.sampleObject : Value :=
  .ofDict (.ofList [("b", .float ⟨0x7FF0000000000000⟩),
    ("a", .array [.integer (-12), .ofDict .empty, .string "é"])])

theorem Value.texts_agree_sampleObject :
    Json.library.Documented ∧ sampleObject.Ordered ∧
      ∃ part, Told Json.library.compact.writer sampleObject part ∧
        sampleObject.write Json.library.compact = .ok (part 0) ∧
        sampleObject.toJson.write Json.library.compact = .ok (part 0) ∧
        part 0 = "\x7b\"a\":[-12,\x7b\x7d,\"é\"],\"b\":null\x7d" ∧
        Report.ofOutcome Json.library (.ok sampleObject) = ⟨part 0, false⟩ := by
  have ordered : sampleObject.Ordered := by
    refine .ofDict (List.forall_mem_cons.mpr ⟨.array ?_, List.forall_mem_singleton.mpr .float⟩)
    refine List.forall_mem_cons.mpr ⟨.integer, List.forall_mem_cons.mpr ⟨.ofDict nofun, ?_⟩⟩
    exact List.forall_mem_singleton.mpr .string
  have spelled : sampleObject.write Json.library.compact =
      .ok "\x7b\"a\":[-12,\x7b\x7d,\"é\"],\"b\":null\x7d" := by rfl
  obtain ⟨texts, reports, _⟩ := texts_agree Json.documented_library
  obtain ⟨part, told, written, same⟩ := (texts sampleObject ordered).2 _ (.inl rfl)
  obtain ⟨text, alsoSame, report⟩ := reports sampleObject ordered
  have isText : part 0 = text := Except.ok.inj (same.symm.trans alsoSame)
  refine ⟨Json.documented_library, ordered, part, told, written, same, ?_, ?_⟩
  · exact Except.ok.inj (written.symm.trans spelled)
  · rw [isText]
    exact report

end FieldQuery
