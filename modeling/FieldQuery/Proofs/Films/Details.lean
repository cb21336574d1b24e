import FieldQuery.Films.Catalog
import FieldQuery.Proofs.Execution.Repetition

/-!
# Stored details of films

What a context holds once details of a film are stored in it: the derived details under their own
keys, and everything else as before. The seed is among what stays, so it does not matter when a
detail is derived. The details are given with the exact part number, as an integer; deriving them
gives no others, unless the part number is no word, and then it is a fault.
-/

set_option autoImplicit false

namespace FieldQuery.Films

open DataGraph

/-! ## Derived details -/

def chosen (texts : List String) (hash : Nat) : String := texts.getD (hash % texts.length) ""

def detail? (seed film : Int64) (field : String) : Option Value :=
  match field with
  | "name" =>
      some (.string ("Spiderman " ++ Text.decimal (film.toInt + 1) ++ ". " ++
        chosen titles (hash seed film 1)))
  | "description" =>
      some (.string (chosen (descriptions (Text.decimal (film.toInt + 1))) (hash seed film 2)))
  | "releaseYear" => some (.integer (Int64.ofNat (1990 + hash seed film 3 % 35)))
  | _ => none

def storeDetails (seed film : Int64) (fields : List String) (context : Context) : Context :=
  fields.foldl
    (fun context field =>
      match detail? seed film field with
      | some value => context.insert (detailKey film field) value
      | none => context)
    context

theorem pick_eq {texts : List String} (nonempty : texts ≠ []) (hash : Nat) :
    pick texts hash = .ok (chosen texts hash) := by
  have inside := Nat.mod_lt hash (List.length_pos_iff.mpr nonempty)
  rw [pick, chosen, List.getD_eq_getElem?_getD, List.getElem?_eq_getElem inside]
  rfl

theorem sum_eq {left right : Int64} (fits : Numeric.InInt64 (left.toInt + right.toInt)) :
    sum left right = .ok (left + right) ∧ (left + right).toInt = left.toInt + right.toInt := by
  refine ⟨if_pos fits, ?_⟩
  rw [Int64.toInt_add]
  apply Int.bmod_eq_of_le_mul_two <;> omega

/-- A film has a part number unless its number is the greatest one. -/
theorem partNumber_eq {film : Int64} (below : film ≠ Int64.maxValue) :
    ∃ part, partNumber film = .ok part ∧ part.toInt = film.toInt + 1 := by
  have lower := film.le_toInt
  have upper := film.toInt_lt
  have notGreatest : film.toInt ≠ 9223372036854775807 := fun same =>
    below (Int64.toInt_inj.mp (same.trans Int64.toInt_maxValue.symm))
  have fits : Numeric.InInt64 (film.toInt + (1 : Int64).toInt) := by
    rw [Int64.toInt_one]
    constructor <;> omega
  obtain ⟨isSum, exact⟩ := sum_eq fits
  exact ⟨film + 1, isSum, exact⟩

theorem partNumber_maxValue : partNumber Int64.maxValue = .error .sumOutOfRange := rfl

theorem derive_eq {film part : Int64} (isPart : part.toInt = film.toInt + 1) (seed : Int64)
    (field : String) : derive seed film part field = .ok (detail? seed film field) := by
  have titled : titles ≠ [] := List.cons_ne_nil _ _
  have described (part : String) : descriptions part ≠ [] := List.cons_ne_nil _ _
  fun_cases detail? seed film field
  · rw [derive, isPart, pick_eq titled]
    rfl
  · rw [derive, isPart, pick_eq (described _)]
    rfl
  · -- The year is one of 35 from 1990 on.
    have offset : (Int64.ofNat (hash seed film 3 % 35)).toInt = (hash seed film 3 % 35 : Nat) :=
      Int64.toInt_ofNat_of_lt (by omega)
    have fits : Numeric.InInt64
        ((1990 : Int64).toInt + (Int64.ofNat (hash seed film 3 % 35)).toInt) := by
      rw [offset, show (1990 : Int64).toInt = 1990 from rfl]
      constructor <;> omega
    rw [derive, (sum_eq fits).1, Int64.ofNat_add]
    rfl
  · next notName notDescription notYear =>
      rw [derive]
      · rfl
      · exact notName
      · exact notDescription
      · exact notYear

theorem storeDerived_eq {film part : Int64} (isPart : part.toInt = film.toInt + 1) (seed : Int64)
    (fields : List String) (context : Context) :
    storeDerived seed film part fields context = .ok (storeDetails seed film fields context) := by
  induction fields generalizing context with
  | nil => rfl
  | cons field fields ih =>
      have stored : storeDerived seed film part (field :: fields) context =
          (derive seed film part field >>= fun derived =>
            match derived with
            | some detail =>
                storeDerived seed film part fields (context.insert (detailKey film field) detail)
            | none => storeDerived seed film part fields context) := by
        rw [storeDerived, List.foldlM_cons, bind_assoc]
        refine bind_congr fun derived => ?_
        cases derived <;> rfl
      rw [stored, derive_eq isPart, storeDetails, List.foldl_cons]
      cases detail? seed film field with
      | none => exact ih context
      | some detail => exact ih _

/-! ## Contexts with details -/

def detailFields : List String := ["name", "description", "releaseYear"]

theorem isSome_detail?_iff {seed film : Int64} {field : String} :
    (detail? seed film field).isSome ↔ field ∈ detailFields := by
  unfold detail? detailFields
  split <;> simp_all

theorem detailKey_ne_seed (film : Int64) (field : String) : detailKey film field ≠ "seed" := by
  intro same
  have first := congrArg (fun key : String => key.toList.head?) same
  simp [detailKey] at first

theorem detailKey_right_injective {film : Int64} {field other : String}
    (same : detailKey film field = detailKey film other) : field = other := by
  rw [detailKey, detailKey] at same
  simpa using same

theorem storeDetails_cons (seed film : Int64) (field : String) (fields : List String)
    (context : Context) :
    storeDetails seed film (field :: fields) context =
      storeDetails seed film fields (storeDetails seed film [field] context) := rfl

theorem get?_storeDetail (seed film : Int64) (field : String) (context : Context) (key : String) :
    (storeDetails seed film [field] context).get? key =
      match detail? seed film field with
      | some detail => if key = detailKey film field then some detail else context.get? key
      | none => context.get? key := by
  simp only [storeDetails, List.foldl_cons, List.foldl_nil]
  cases detail? seed film field with
  | none => rfl
  | some detail => exact context.get?_insert _ _ _

/-- Under every key stands a stored detail, or what stood there before. -/
theorem get?_storeDetails (seed film : Int64) (fields : List String) (context : Context)
    (key : String) :
    (∃ field ∈ fields, ∃ detail, key = detailKey film field ∧
        detail? seed film field = some detail ∧
        (storeDetails seed film fields context).get? key = some detail) ∨
      ((∀ field ∈ fields, key = detailKey film field → detail? seed film field = none) ∧
        (storeDetails seed film fields context).get? key = context.get? key) := by
  induction fields generalizing context with
  | nil => exact .inr ⟨nofun, rfl⟩
  | cons first rest ih =>
      rw [storeDetails_cons]
      rcases ih (storeDetails seed film [first] context) with
        ⟨field, member, stored⟩ | ⟨absent, kept⟩
      · exact .inl ⟨field, List.mem_cons_of_mem _ member, stored⟩
      · rw [kept, get?_storeDetail, List.forall_mem_cons]
        cases derived : detail? seed film first with
        | none => exact .inr ⟨⟨fun _ => rfl, absent⟩, rfl⟩
        | some detail =>
            by_cases same : key = detailKey film first
            · exact .inl ⟨first, List.mem_cons_self, detail, same, derived, if_pos same⟩
            · exact .inr ⟨⟨fun own => absurd own same, absent⟩, if_neg same⟩

theorem get?_storeDetails_detailKey {seed film : Int64} {fields : List String} {field : String}
    {detail : Value} (member : field ∈ fields) (derived : detail? seed film field = some detail)
    (context : Context) :
    (storeDetails seed film fields context).get? (detailKey film field) = some detail := by
  rcases get?_storeDetails seed film fields context (detailKey film field) with
    ⟨other, _, found, same, own, stored⟩ | ⟨absent, _⟩
  · rw [← detailKey_right_injective same, derived] at own
    rw [stored, own]
  · rw [absent field member rfl] at derived
    cases derived

theorem get?_storeDetails_seed (seed film : Int64) (fields : List String) (context : Context) :
    (storeDetails seed film fields context).get? "seed" = context.get? "seed" := by
  rcases get?_storeDetails seed film fields context "seed" with
    ⟨field, _, _, own, _⟩ | ⟨_, kept⟩
  · exact absurd own.symm (detailKey_ne_seed film field)
  · exact kept

theorem seedIn_congr {context other : Context} (same : context.get? "seed" = other.get? "seed") :
    seedIn context = seedIn other := by
  rw [seedIn, seedIn, same]

end FieldQuery.Films
