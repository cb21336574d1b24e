/-!
# Computations that may fail

Laws of `Except` for computations of which only success matters.
-/

set_option autoImplicit false

namespace FieldQuery.Fallible

variable {Fault Value Result : Type}

/-- A sequence succeeds exactly when its two parts do. -/
theorem bind_eq_ok_iff {source : Except Fault Value} {continuation : Value → Except Fault Result}
    {result : Result} :
    source >>= continuation = .ok result ↔
      ∃ value, source = .ok value ∧ continuation value = .ok result := by
  constructor
  · intro success
    cases source with
    | error fault => cases success
    | ok value => exact ⟨value, rfl, success⟩
  · rintro ⟨value, rfl, continued⟩
    exact continued

/-- A sequence fails exactly when its first part does, or its second part behind it. -/
theorem bind_eq_error_iff {source : Except Fault Value}
    {continuation : Value → Except Fault Result} {fault : Fault} :
    source >>= continuation = .error fault ↔
      source = .error fault ∨
        ∃ value, source = .ok value ∧ continuation value = .error fault := by
  constructor
  · intro failure
    cases source with
    | error earlier =>
        cases failure
        exact .inl rfl
    | ok value => exact .inr ⟨value, rfl, failure⟩
  · rintro (rfl | ⟨value, rfl, failure⟩)
    · rfl
    · exact failure

/-- What makes a list of steps fail is the first step that does. -/
theorem split_of_mapM_eq_error {Source : Type} {step : Source → Except Fault Value}
    {sources : List Source} {fault : Fault} (failure : sources.mapM step = .error fault) :
    ∃ front source back, sources = front ++ source :: back ∧ step source = .error fault ∧
      ∀ earlier ∈ front, ∃ value, step earlier = .ok value := by
  induction sources with
  | nil => cases failure
  | cons source sources ih =>
      rw [List.mapM_cons] at failure
      rcases bind_eq_error_iff.mp failure with first | ⟨value, stepped, failure⟩
      · exact ⟨[], source, sources, rfl, first, nofun⟩
      · rcases bind_eq_error_iff.mp failure with later | ⟨values, _, returned⟩
        · obtain ⟨front, other, back, rfl, failed, accepted⟩ := ih later
          exact ⟨source :: front, other, back, rfl, failed,
            List.forall_mem_cons.mpr ⟨⟨value, stepped⟩, accepted⟩⟩
        · cases returned

theorem exists_of_mapM_eq_error {Source : Type} {step : Source → Except Fault Value}
    {sources : List Source} {fault : Fault} (failure : sources.mapM step = .error fault) :
    ∃ source ∈ sources, step source = .error fault := by
  obtain ⟨front, source, back, rfl, failed, _⟩ := split_of_mapM_eq_error failure
  exact ⟨source, by simp, failed⟩

/-- Every value of a list of results is the result of one of the steps. -/
theorem mem_of_mapM_eq_ok {Source : Type} {step : Source → Except Fault Value}
    {sources : List Source} {values : List Value} (done : sources.mapM step = .ok values)
    {value : Value} (member : value ∈ values) : ∃ source ∈ sources, step source = .ok value := by
  induction sources generalizing values with
  | nil =>
      cases done
      cases member
  | cons source sources ih =>
      rw [List.mapM_cons] at done
      obtain ⟨first, stepped, done⟩ := bind_eq_ok_iff.mp done
      obtain ⟨rest, remaining, returned⟩ := bind_eq_ok_iff.mp done
      cases returned
      rcases List.mem_cons.mp member with rfl | later
      · exact ⟨source, List.mem_cons_self, stepped⟩
      · obtain ⟨other, found, gave⟩ := ih remaining later
        exact ⟨other, List.mem_cons_of_mem _ found, gave⟩

/-- A list of steps succeeds exactly when each step does. -/
theorem exists_mapM_eq_ok_iff {Source : Type} {step : Source → Except Fault Value}
    {sources : List Source} :
    (∃ values, sources.mapM step = .ok values) ↔
      ∀ source ∈ sources, ∃ value, step source = .ok value := by
  induction sources with
  | nil => exact ⟨fun _ => nofun, fun _ => ⟨[], rfl⟩⟩
  | cons source sources ih =>
      rw [List.forall_mem_cons, ← ih]
      constructor
      · rintro ⟨values, done⟩
        rw [List.mapM_cons] at done
        obtain ⟨first, stepped, done⟩ := bind_eq_ok_iff.mp done
        obtain ⟨rest, remaining, _⟩ := bind_eq_ok_iff.mp done
        exact ⟨⟨first, stepped⟩, rest, remaining⟩
      · rintro ⟨⟨first, stepped⟩, rest, remaining⟩
        refine ⟨first :: rest, ?_⟩
        rw [List.mapM_cons, stepped, remaining]
        rfl

/-- What undoes each step takes the values back to the list. -/
theorem map_eq_of_mapM_eq_ok {Source : Type} {step : Source → Except Fault Value}
    {undo : Value → Source} {sources : List Source} {values : List Value}
    (undoes : ∀ source value, step source = .ok value → undo value = source)
    (done : sources.mapM step = .ok values) : values.map undo = sources := by
  induction sources generalizing values with
  | nil =>
      cases done
      rfl
  | cons source sources ih =>
      rw [List.mapM_cons] at done
      obtain ⟨first, stepped, done⟩ := bind_eq_ok_iff.mp done
      obtain ⟨rest, remaining, returned⟩ := bind_eq_ok_iff.mp done
      cases returned
      rw [List.map_cons, undoes source first stepped, ih remaining]

/-- Steps that give the same values wherever these are wanted give the same list. -/
theorem mapM_eq_ok_of_mapM {Source : Type} {first second : Source → Except Fault Value}
    {sources : List Source} {values : List Value}
    (carries : ∀ source ∈ sources, ∀ value ∈ values,
      first source = .ok value → second source = .ok value)
    (done : sources.mapM first = .ok values) : sources.mapM second = .ok values := by
  induction sources generalizing values with
  | nil => exact done
  | cons source sources ih =>
      rw [List.mapM_cons] at done ⊢
      obtain ⟨value, stepped, done⟩ := bind_eq_ok_iff.mp done
      obtain ⟨rest, remaining, returned⟩ := bind_eq_ok_iff.mp done
      cases returned
      rw [carries source List.mem_cons_self value List.mem_cons_self stepped]
      have later := ih (fun other member result found =>
        carries other (List.mem_cons_of_mem _ member) result (List.mem_cons_of_mem _ found))
        remaining
      rw [later]
      rfl

theorem mapM_map_eq_ok {Code : Type} {encode : Value → Code} {decode : Code → Except Fault Value}
    (undoes : ∀ value, decode (encode value) = .ok value) (values : List Value) :
    (values.map encode).mapM decode = .ok values := by
  induction values with
  | nil => rfl
  | cons value values ih =>
      rw [List.map_cons, List.mapM_cons, undoes, ih]
      rfl

/-- A computation does what another one does, or stops with one of certain faults. -/
def Narrows (stops : Fault → Prop) (tight loose : Except Fault Value) : Prop :=
  tight = loose ∨ ∃ fault, tight = .error fault ∧ stops fault

variable {stops : Fault → Prop}

theorem narrows_refl (source : Except Fault Value) : Narrows stops source source := .inl rfl

theorem Narrows.bind {tight loose : Except Fault Value}
    {tightNext looseNext : Value → Except Fault Result} (first : Narrows stops tight loose)
    (next : ∀ value, Narrows stops (tightNext value) (looseNext value)) :
    Narrows stops (tight >>= tightNext) (loose >>= looseNext) := by
  rcases first with rfl | ⟨fault, rfl, stopped⟩
  · cases tight with
    | error fault => exact narrows_refl _
    | ok value => exact next value
  · exact .inr ⟨fault, rfl, stopped⟩

theorem Narrows.mapM {Source : Type} {tight loose : Source → Except Fault Value}
    {sources : List Source} (each : ∀ source ∈ sources, Narrows stops (tight source) (loose source)) :
    Narrows stops (sources.mapM tight) (sources.mapM loose) := by
  induction sources with
  | nil => exact narrows_refl _
  | cons source sources ih =>
      rw [List.mapM_cons, List.mapM_cons]
      apply (each source List.mem_cons_self).bind
      intro first
      apply (ih fun other member => each other (List.mem_cons_of_mem _ member)).bind
      intro rest
      exact narrows_refl _

theorem toOption_bind (source : Except Fault Value) (continuation : Value → Except Fault Result) :
    (source >>= continuation).toOption =
      source.toOption.bind fun value => (continuation value).toOption := by
  cases source <;> rfl

theorem toOption_eq_some_iff {source : Except Fault Value} {value : Value} :
    source.toOption = some value ↔ source = .ok value := by
  cases source <;> simp [Except.toOption]

end FieldQuery.Fallible
