import FieldQuery.Proofs.Interchange.FirstOffence

/-!
# One path for all readings

A reading can keep the names of the branches around the place at hand in one list that all its
levels change: a branch appends its name once this is read, and takes it off when all of it is
read. Where a reading succeeds, the list is as it was; where it fails, nothing is taken off, so
the list is the path of the error.
-/

set_option autoImplicit false

namespace FieldQuery.Interchange.SharedPath

open Query

variable {α β : Type}

/-! ## Readings that share a path -/

/-- A reading with the path at hand, which a failure leaves where it stood. -/
abbrev Reading (α : Type) := ExceptT ShapeError (StateM Path) α

def push (name : String) : Reading Unit := modify fun path => path ++ [name]

def pop : Reading Unit := modify List.dropLast

def refuse (fault : Fault) : Reading α := do throw ⟨← get, fault⟩

def decodeThird : List Json → Reading Arguments
  | [] => return .empty
  | .object members :: _ => do liftExcept (decodeArguments (← get) members)
  | _ :: _ => refuse .argumentsNotObject

mutual

def decodeSelection : Json → Reading Selection
  | .string name => return .leaf name
  | .array items =>
      if items.length ≠ 2 ∧ items.length ≠ 3 then refuse .wrongLength
      else
        match items with
        | .string name :: second :: rest => do
            push name
            match second with
            | .array nested => do
                let arguments ← decodeThird rest
                let selections ← decodeSelections nested
                pop
                return .branch name arguments selections
            | _ => refuse .selectionsNotList
        | _ => refuse .nameNotString
  | _ => refuse .neitherStringNorList

def decodeSelections : List Json → Reading (List Selection)
  | [] => return []
  | item :: rest => do
      let selection ← decodeSelection item
      let selections ← decodeSelections rest
      return selection :: selections

end

def decode : Json → Reading (List Selection)
  | .array items => decodeSelections items
  | _ => refuse .queryNotList

/-! ## The path behind a reading -/

/-- The path behind a reading: where it succeeds, the one to which it moves on, and where it fails,
the one that the error names. -/
def behind (exit : Path) : Except ShapeError α → Path
  | .ok _ => exit
  | .error error => error.path

def Moves (entry exit : Path) (reading : Reading α) (plain : Except ShapeError α) : Prop :=
  reading.run.run entry = (plain, behind exit plain)

variable {entry between exit path : Path}

theorem moves_pure (value : α) : Moves path path (pure value) (.ok value) := rfl

theorem moves_push (name : String) : Moves path (path ++ [name]) (push name) (.ok ()) := rfl

theorem moves_pop (name : String) : Moves (path ++ [name]) path pop (.ok ()) :=
  congrArg (fun names => (_, names)) List.dropLast_concat

theorem moves_refuse (fault : Fault) :
    Moves entry exit (refuse fault : Reading α) (.error ⟨entry, fault⟩) := rfl

theorem Moves.bind {reading : Reading α} {plain : Except ShapeError α} {next : α → Reading β}
    {plainNext : α → Except ShapeError β} (first : Moves entry between reading plain)
    (second : ∀ value, Moves between exit (next value) (plainNext value)) :
    Moves entry exit (reading >>= next) (plain >>= plainNext) := by
  have unfolded : (reading >>= next).run.run entry =
      (ExceptT.bindCont next (reading.run.run entry).1).run (reading.run.run entry).2 := rfl
  rw [Moves, unfolded, first]
  cases plain with
  | error error => rfl
  | ok value => exact second value

theorem Moves.mapM {each : α → Reading β} {plain : α → Except ShapeError β} {values : List α}
    (moves : ∀ value ∈ values, Moves path path (each value) (plain value)) :
    Moves path path (values.mapM each) (values.mapM plain) := by
  induction values with
  | nil => exact moves_pure []
  | cons value values ih =>
      obtain ⟨first, later⟩ := List.forall_mem_cons.mp moves
      rw [List.mapM_cons, List.mapM_cons]
      apply first.bind
      intro result
      apply (ih later).bind
      intro results
      exact moves_pure (result :: results)

theorem path_of_decodeArguments {members : List (String × Json)} {error : ShapeError}
    (refused : decodeArguments path members = .error error) : error.path = path := by
  rcases Fallible.bind_eq_error_iff.mp refused with failed | ⟨_, _, returned⟩
  · obtain ⟨⟨key, value⟩, _, failed⟩ := Fallible.exists_of_mapM_eq_error failed
    rcases Fallible.bind_eq_error_iff.mp failed with failed | ⟨_, _, returned⟩
    · obtain ⟨fault, _, rfl⟩ := argumentOffends_of_decodeArgument failed
      rfl
    · cases returned
  · cases returned

theorem moves_decodeArguments (members : List (String × Json)) :
    Moves path path (do liftExcept (decodeArguments (← get) members))
      (decodeArguments path members) := by
  have unfolded :
      (do liftExcept (decodeArguments (← get) members) : Reading Arguments).run.run path =
        (liftExcept (decodeArguments path members) : Reading Arguments).run.run path := rfl
  rw [Moves, unfolded]
  cases decoded : decodeArguments path members with
  | ok => rfl
  | error =>
      rw [behind, path_of_decodeArguments decoded]
      rfl

theorem decodeSelections_eq_mapM (items : List Json) :
    decodeSelections items = items.mapM decodeSelection := by
  induction items with
  | nil => rw [decodeSelections, List.mapM_nil]
  | cons item rest ih => rw [decodeSelections, List.mapM_cons, ih]

theorem moves_decodeSelections {items : List Json}
    (each : ∀ item ∈ items,
      Moves path path (decodeSelection item) (Interchange.decodeSelection path item)) :
    Moves path path (decodeSelections items) (Interchange.decodeSelections path items) := by
  rw [decodeSelections_eq_mapM, Interchange.decodeSelections_eq_mapM]
  exact .mapM each

/-- A branch takes its name off the path when its arguments and selections are read. -/
theorem moves_branch {name : String} {items : List Json} {third : Reading Arguments}
    {given : Except ShapeError Arguments}
    (arguments : Moves (path ++ [name]) (path ++ [name]) third given)
    (nested : ∀ item ∈ items, Moves (path ++ [name]) (path ++ [name]) (decodeSelection item)
      (Interchange.decodeSelection (path ++ [name]) item)) :
    Moves path path
      (do
        push name
        let arguments ← third
        let selections ← decodeSelections items
        pop
        return Selection.branch name arguments selections)
      (do
        let arguments ← given
        let selections ← Interchange.decodeSelections (path ++ [name]) items
        return Selection.branch name arguments selections) := by
  have pops : Moves (path ++ [name]) path pop (.ok ()) := moves_pop name
  have ends (values : Arguments) (selections : List Selection) :=
    pops.bind fun _ => moves_pure (Selection.branch name values selections)
  have reads := (moves_push name).bind fun _ =>
    arguments.bind fun values => (moves_decodeSelections nested).bind (ends values)
  exact reads

theorem moves_node {json : Json}
    (nested : ∀ name items rest, json = .array (.string name :: .array items :: rest) →
      ∀ item ∈ items, Moves (path ++ [name]) (path ++ [name]) (decodeSelection item)
        (Interchange.decodeSelection (path ++ [name]) item)) :
    Moves path path (decodeSelection json) (Interchange.decodeSelection path json) := by
  unfold Interchange.decodeSelection
  split
  · exact moves_pure _
  · next name items =>
      exact moves_branch (moves_pure Dict.empty) (nested name items [] rfl)
  · next name items members =>
      exact moves_branch (moves_decodeArguments members) (nested name items _ rfl)
  · next name items third notObject =>
      cases third with
      | object members => exact absurd rfl (notObject members)
      | _ => rfl
  · next name second notList =>
      cases second with
      | array items => exact absurd rfl (notList items)
      | _ => rfl
  · next name second third _ notList =>
      cases second with
      | array items => exact absurd rfl (notList items)
      | _ => rfl
  · next first second _ notText =>
      cases first with
      | string text => exact absurd rfl (notText text)
      | _ => rfl
  · next first second third _ _ notText =>
      cases first with
      | string text => exact absurd rfl (notText text)
      | _ => rfl
  · next items _ _ _ _ _ notTwo notThree =>
      have measured : items.length ≠ 2 ∧ items.length ≠ 3 := by
        constructor
        · intro two
          obtain ⟨first, second, same⟩ := List.length_eq_two.mp two
          exact notTwo first second same
        · intro three
          obtain ⟨first, second, third, same⟩ := List.length_eq_three.mp three
          exact notThree first second third same
      unfold decodeSelection
      rw [if_pos measured]
      exact moves_refuse _
  · next notText _ _ _ _ _ _ _ notList =>
      cases json with
      | string text => exact absurd rfl (notText text)
      | array items => exact absurd rfl (notList items)
      | _ => rfl

/-- A selection is read as with the path given. The path is there again behind it, or is the one
that its error names. -/
theorem moves_decodeSelection (path : Path) (json : Json) :
    Moves path path (decodeSelection json) (Interchange.decodeSelection path json) := by
  apply moves_node
  intro name items rest same item member
  exact moves_decodeSelection (path ++ [name]) item
termination_by sizeOf json
decreasing_by
  have smaller := List.sizeOf_lt_of_mem member
  rw [same]
  simp only [Json.array.sizeOf_spec, List.cons.sizeOf_spec]
  omega

/-- With one path for all levels a value is read, or refused, as with the path given. -/
theorem run_decode (json : Json) :
    (decode json).run.run [] = (Interchange.decode json, behind [] (Interchange.decode json)) := by
  cases json with
  | array items => exact moves_decodeSelections fun item _ => moves_decodeSelection [] item
  | null | boolean | number | string | object => rfl

end FieldQuery.Interchange.SharedPath
