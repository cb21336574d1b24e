import FieldQuery.DataGraph.FieldTable
import FieldQuery.Proofs.Entries
import FieldQuery.Proofs.Text.ByteOrder
import Mathlib.Data.List.Induction

/-!
# The calls that build a table

A table is built by calls in any order. Each call fills the slot of a name or that of the hook, in
place of what an earlier call has put there, of whatever kind that was. So all that a table tells,
and all that an execution sees of a subject, is what the last calls of the slots say.
-/

set_option autoImplicit false

namespace FieldQuery.DataGraph

open Query

variable {State Subject Node : Type}

namespace NodeView

variable {view : NodeView State Node} {name : String}

theorem isSome_scalar?_iff :
    (view.scalar? name).isSome ↔ (view.field? name).map Field.kind = some .scalar := by
  rw [NodeView.scalar?]
  cases view.field? name with
  | none => simp
  | some field =>
      cases field with
      | scalar stored resolver => cases resolver <;> simp [Field.scalar?, Field.kind]
      | collection stored resolver => simp [Field.scalar?, Field.kind]

theorem isSome_nodes?_iff :
    (view.nodes? name).isSome ↔ (view.field? name).map Field.kind = some .collection := by
  rw [NodeView.nodes?]
  cases view.field? name with
  | none => simp
  | some field =>
      cases field with
      | scalar stored resolver => simp [Field.nodes?, Field.kind]
      | collection stored resolver => cases resolver <;> simp [Field.nodes?, Field.kind]

end NodeView

namespace FieldTable

inductive BuilderCall (State Subject Node : Type) where
  | scalar (name : String) (stored : Subject → Value)
  | scalarWith (name : String) (stored : Subject → Value)
      (resolver : Subject → StateM State (Resolution Value))
  | collection (name : String) (stored : Subject → List Node)
  | collectionWith (name : String) (stored : Subject → List Node)
      (resolver : Subject → Arguments → StateM State (Resolution (List Node)))
  | batchResolve (hook : Subject → Hook State)

namespace BuilderCall

def apply (table : FieldTable State Subject Node) :
    BuilderCall State Subject Node → FieldTable State Subject Node
  | .scalar name stored => table.scalar name stored
  | .scalarWith name stored resolver => table.scalarWith name stored resolver
  | .collection name stored => table.collection name stored
  | .collectionWith name stored resolver => table.collectionWith name stored resolver
  | .batchResolve hook => table.batchResolve hook

/-- The name that a call declares; a call that gives the hook declares none. -/
def slot : BuilderCall State Subject Node → Option String
  | .scalar name _ | .scalarWith name _ _ => some name
  | .collection name _ | .collectionWith name _ _ => some name
  | .batchResolve _ => none

def declaration? : BuilderCall State Subject Node → Option (Declaration State Subject Node)
  | .scalar _ stored => some (.scalar stored none)
  | .scalarWith _ stored resolver => some (.scalar stored (some resolver))
  | .collection _ stored => some (.collection stored none)
  | .collectionWith _ stored resolver => some (.collection stored (some resolver))
  | .batchResolve _ => none

def hook? : BuilderCall State Subject Node → Option (Subject → Hook State)
  | .batchResolve hook => some hook
  | .scalar _ _ | .scalarWith _ _ _ | .collection _ _ | .collectionWith _ _ _ => none

def kind? : BuilderCall State Subject Node → Option FieldKind
  | .scalar _ _ | .scalarWith _ _ _ => some .scalar
  | .collection _ _ | .collectionWith _ _ _ => some .collection
  | .batchResolve _ => none

/-- The computation of a scalar's value from the accessor and the resolver of a call: what the
resolver overrides with, or else what the accessor reads. -/
def scalar? (subject : Subject) : BuilderCall State Subject Node → Option (StateM State Value)
  | .scalar _ stored => some (pure (stored subject))
  | .scalarWith _ stored resolver => some do
      match ← resolver subject with
      | .override value => return value
      | .useStored => return stored subject
  | .collection _ _ | .collectionWith _ _ _ | .batchResolve _ => none

def nodes? (subject : Subject) :
    BuilderCall State Subject Node → Option (Arguments → StateM State (List Node))
  | .collection _ stored => some fun _ => pure (stored subject)
  | .collectionWith _ stored resolver => some fun arguments => do
      match ← resolver subject arguments with
      | .override children => return children
      | .useStored => return stored subject
  | .scalar _ _ | .scalarWith _ _ _ | .batchResolve _ => none

end BuilderCall

def build (calls : List (BuilderCall State Subject Node)) : FieldTable State Subject Node :=
  calls.foldl BuilderCall.apply empty

def lastCall? (calls : List (BuilderCall State Subject Node)) (slot : Option String) :
    Option (BuilderCall State Subject Node) :=
  calls.reverse.find? fun call => call.slot == slot

variable {table : FieldTable State Subject Node} {call : BuilderCall State Subject Node}
  {calls : List (BuilderCall State Subject Node)} {slot : Option String} {name : String}
  {subject : Subject}

/-! ## One call -/

namespace BuilderCall

theorem get?_apply :
    (apply table call).declarations.get? name =
      if call.slot = some name then call.declaration? else table.declarations.get? name := by
  cases call with
  | batchResolve => rfl
  | scalar | scalarWith | collection | collectionWith =>
      simp only [slot, Option.some.injEq, eq_comm]
      exact Dict.get?_insert table.declarations _ name _

theorem hook_apply :
    (apply table call).hook = if call.slot = none then call.hook? else table.hook := by
  cases call <;> rfl

theorem kind?_eq : call.kind? = call.declaration?.map Declaration.kind := by
  cases call <;> rfl

theorem scalar?_eq :
    call.scalar? subject = (call.declaration?.map (Declaration.of subject)).bind Field.scalar? := by
  cases call with
  | scalar | collection | collectionWith | batchResolve => rfl
  | scalarWith name stored resolver =>
      refine congrArg some (congrArg (resolver subject >>= ·) (funext fun resolution => ?_))
      cases resolution <;> rfl

theorem nodes?_eq :
    call.nodes? subject = (call.declaration?.map (Declaration.of subject)).bind Field.nodes? := by
  cases call with
  | scalar | scalarWith | collection | batchResolve => rfl
  | collectionWith name stored resolver =>
      refine congrArg some (funext fun arguments => ?_)
      refine congrArg (resolver subject arguments >>= ·) (funext fun resolution => ?_)
      cases resolution <;> rfl

theorem isSome_declaration?_iff : call.declaration?.isSome ↔ call.slot ≠ none := by
  cases call <;> simp [declaration?, slot]

end BuilderCall

/-! ## All calls -/

theorem build_concat (calls : List (BuilderCall State Subject Node))
    (call : BuilderCall State Subject Node) : build (calls ++ [call]) = call.apply (build calls) :=
  List.foldl_append

theorem lastCall?_concat :
    lastCall? (calls ++ [call]) slot =
      if call.slot = slot then some call else lastCall? calls slot := by
  rw [lastCall?, List.reverse_concat, List.find?_cons]
  by_cases same : call.slot = slot
  · rw [if_pos same, beq_iff_eq.mpr same]
  · rw [if_neg same, beq_eq_false_iff_ne.mpr same, lastCall?]

theorem slot_of_lastCall? (last : lastCall? calls slot = some call) : call.slot = slot := by
  simpa using List.find?_some last

theorem isSome_lastCall?_iff :
    (lastCall? calls slot).isSome ↔ ∃ call ∈ calls, call.slot = slot := by
  simp [lastCall?]

theorem get?_build (calls : List (BuilderCall State Subject Node)) (name : String) :
    (build calls).declarations.get? name =
      (lastCall? calls (some name)).bind BuilderCall.declaration? := by
  induction calls using List.reverseRecOn with
  | nil => rfl
  | append_singleton calls call ih =>
      rw [build_concat, BuilderCall.get?_apply, lastCall?_concat, ih]
      split <;> rfl

theorem hook_build (calls : List (BuilderCall State Subject Node)) :
    (build calls).hook = (lastCall? calls none).bind BuilderCall.hook? := by
  induction calls using List.reverseRecOn with
  | nil => rfl
  | append_singleton calls call ih =>
      rw [build_concat, BuilderCall.hook_apply, lastCall?_concat, ih]
      split <;> rfl

theorem mem_names_build_iff :
    name ∈ (build calls).names ↔ ∃ call ∈ calls, call.slot = some name := by
  rw [← isSome_lastCall?_iff, names, ← Dict.isSome_get?_iff, get?_build]
  cases last : lastCall? calls (some name) with
  | none => rfl
  | some call =>
      have named : call.slot ≠ none := by simp [slot_of_lastCall? last]
      exact iff_of_true (BuilderCall.isSome_declaration?_iff.mpr named) rfl

/-- No later call fills the slot of the call at an index. -/
def InForce (calls : List (BuilderCall State Subject Node)) (index : Nat) : Prop :=
  ∃ call, calls[index]? = some call ∧
    ∀ later other, index < later → calls[later]? = some other → other.slot ≠ call.slot

theorem inForce_last (calls : List (BuilderCall State Subject Node))
    (call : BuilderCall State Subject Node) : InForce (calls ++ [call]) calls.length := by
  refine ⟨call, List.getElem?_concat_length, fun later other after found => ?_⟩
  have bound : later < (calls ++ [call]).length := (List.getElem?_eq_some_iff.mp found).1
  rw [List.length_append, List.length_singleton] at bound
  omega

theorem InForce.concat {index : Nat} (inForce : InForce calls index)
    (last : calls[index]? = some call) {further : BuilderCall State Subject Node}
    (different : further.slot ≠ call.slot) : InForce (calls ++ [further]) index := by
  obtain ⟨own, found, after⟩ := inForce
  cases last.symm.trans found
  have bound : index < calls.length := (List.getElem?_eq_some_iff.mp found).1
  refine ⟨call, (List.getElem?_append_left bound).trans found, fun later other below there => ?_⟩
  rcases Nat.lt_or_ge later calls.length with before | behind
  · rw [List.getElem?_append_left before] at there
    exact after later other below there
  · rw [List.getElem?_append_right behind, List.getElem?_singleton] at there
    split at there
    · cases there
      exact different
    · cases there

/-- Where calls change with their places but keep their slots, the last call for a slot is the
changed one of the last call before. -/
theorem lastCall?_mapIdx {Image : Type} (change : Nat → BuilderCall State Subject Node →
      BuilderCall Image Subject Node)
    (kept : ∀ index call, (change index call).slot = call.slot)
    (calls : List (BuilderCall State Subject Node)) (slot : Option String) :
    (lastCall? calls slot = none ∧ lastCall? (calls.mapIdx change) slot = none) ∨
      ∃ index call, InForce calls index ∧ calls[index]? = some call ∧
        lastCall? calls slot = some call ∧
        lastCall? (calls.mapIdx change) slot = some (change index call) := by
  induction calls using List.reverseRecOn with
  | nil => exact .inl ⟨rfl, rfl⟩
  | append_singleton calls further ih =>
      rw [List.mapIdx_concat, lastCall?_concat, lastCall?_concat, kept]
      by_cases same : further.slot = slot
      · rw [if_pos same, if_pos same]
        exact .inr ⟨calls.length, further, inForce_last calls further, List.getElem?_concat_length,
          rfl, rfl⟩
      · rw [if_neg same, if_neg same]
        refine ih.imp_right fun found => ?_
        obtain ⟨index, call, inForce, there, last, changed⟩ := found
        have bound : index < calls.length := (List.getElem?_eq_some_iff.mp there).1
        have different : further.slot ≠ call.slot := by rwa [slot_of_lastCall? last]
        exact ⟨index, call, inForce.concat there different,
          (List.getElem?_append_left bound).trans there, last, changed⟩

/-- A table tells and shows what the last calls for the slots say. -/
structure AsLastDeclared (calls : List (BuilderCall State Subject Node))
    (table : FieldTable State Subject Node) : Prop where
  ascending : table.names.Pairwise fun earlier later => Text.bytes earlier < Text.bytes later
  declared (name : String) : name ∈ table.names ↔ ∃ call ∈ calls, call.slot = some name
  kind (name : String) :
    table.kind? name = (lastCall? calls (some name)).bind BuilderCall.kind?
  scalar (subject : Subject) (name : String) :
    (table.view subject).scalar? name =
      (lastCall? calls (some name)).bind (BuilderCall.scalar? subject)
  isScalar (subject : Subject) (name : String) :
    ((table.view subject).scalar? name).isSome ↔ table.kind? name = some .scalar
  nodes (subject : Subject) (name : String) :
    (table.view subject).nodes? name =
      (lastCall? calls (some name)).bind (BuilderCall.nodes? subject)
  isCollection (subject : Subject) (name : String) :
    ((table.view subject).nodes? name).isSome ↔ table.kind? name = some .collection
  hook : table.hook = (lastCall? calls none).bind BuilderCall.hook?

theorem kind?_eq_view (table : FieldTable State Subject Node) (subject : Subject) (name : String) :
    table.kind? name = ((table.view subject).field? name).map Field.kind := by
  rw [kind?, view, Option.map_map]
  congr 1
  funext declaration
  cases declaration <;> rfl

theorem field?_view_build (calls : List (BuilderCall State Subject Node)) (subject : Subject)
    (name : String) :
    ((build calls).view subject).field? name =
      ((lastCall? calls (some name)).bind BuilderCall.declaration?).map (Declaration.of subject) :=
  congrArg (Option.map (Declaration.of subject)) (get?_build calls name)

theorem hook_view_build (calls : List (BuilderCall State Subject Node)) (subject : Subject) :
    ((build calls).view subject).hook =
      ((lastCall? calls none).bind BuilderCall.hook?).map fun hook => hook subject := by
  rw [view, hook_build]

theorem asLastDeclared_build (calls : List (BuilderCall State Subject Node)) :
    AsLastDeclared calls (build calls) where
  ascending := by
    rw [names, Dict.keys, List.pairwise_map]
    exact (build calls).declarations.ascending.imp Text.lt_iff_bytes_lt.mp
  declared _ := mem_names_build_iff
  kind name := by
    rw [kind?, get?_build]
    cases lastCall? calls (some name) with
    | none => rfl
    | some call => exact BuilderCall.kind?_eq.symm
  scalar subject name := by
    rw [NodeView.scalar?, field?_view_build]
    cases lastCall? calls (some name) with
    | none => rfl
    | some call => exact BuilderCall.scalar?_eq.symm
  isScalar subject name := by rw [NodeView.isSome_scalar?_iff, ← kind?_eq_view]
  nodes subject name := by
    rw [NodeView.nodes?, field?_view_build]
    cases lastCall? calls (some name) with
    | none => rfl
    | some call => exact BuilderCall.nodes?_eq.symm
  isCollection subject name := by rw [NodeView.isSome_nodes?_iff, ← kind?_eq_view]
  hook := hook_build calls

example :
    let calls : List (BuilderCall Unit Int64 Int64) :=
      [.scalar "next" .integer, .batchResolve fun _ _ => pure (), .scalar "id" .integer,
        .collection "next" fun number => [number + 1]]
    (build calls).kinds = [("id", .scalar), ("next", .collection)] ∧
      (build calls).hasBatchResolve = true := ⟨rfl, rfl⟩

example (number : Int64) :
    let calls : List (BuilderCall (List Int64) Int64 Int64) :=
      [.scalar "id" fun _ => .null,
        .scalarWith "id" .integer fun number asked =>
          (.override (.integer (2 * number)), number :: asked)]
    (((build calls).view number).scalar? "id").map (fun read => read.run []) =
      some (.integer (2 * number), [number]) := rfl

end FieldTable

end FieldQuery.DataGraph
