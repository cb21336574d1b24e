import FieldQuery.Proofs.Entries
import FieldQuery.Proofs.Query.Canonical
import FieldQuery.Proofs.Query.OnePassAgreement

/-!
# Selections that are read are well formed

Whatever a reader holds, complete or not, consists of names and keys that can be written. One
step keeps this, and so does a run.
-/

set_option autoImplicit false

namespace FieldQuery.Query

open Fallible

theorem hasKeys_empty : HasKeys .empty := nofun

theorem HasKeys.insert {arguments : Arguments} {key : String} (areKeys : HasKeys arguments)
    (isKey : IsKey key) (value : ArgumentValue) : HasKeys (arguments.insert key value) := by
  intro other member
  rcases Dict.mem_keys_insert member with rfl | old
  · exact isKey
  · exact areKeys other old

theorem allWellFormed_append {front back : List Selection} (first : AllWellFormed front)
    (rest : AllWellFormed back) : AllWellFormed (front ++ back) := by
  induction front with
  | nil => exact rest
  | cons selection front ih => exact ⟨first.1, ih first.2⟩

/-- The key in a slot can be written as far as it goes, and is complete once a value follows. -/
def Slot.HasKey : Slot → Prop
  | .key name _ => ∀ character ∈ name.toList, isKeyCharacter character = true
  | .bare owner _ _ | .quoted owner _ _ => IsKey owner

theorem Slot.hasKey_empty : Slot.empty.HasKey := by
  intro character member
  cases member

namespace ArgumentList

structure KeysAccepted (list : ArgumentList) : Prop where
  complete : HasKeys list.arguments
  slot : list.slot.HasKey

theorem keysAccepted_opened (openedAt : Position) : (opened openedAt).KeysAccepted :=
  ⟨hasKeys_empty, Slot.hasKey_empty⟩

theorem hasKeys_commit {before after : Arguments} {slot : Slot} {here : Position}
    (areKeys : HasKeys before) (hasKey : slot.HasKey)
    (committed : commit before slot here = .ok after) : HasKeys after := by
  have added {key : String} {value : ArgumentValue} (isKey : IsKey key)
      (succeeded : add before key value here = .ok after) : HasKeys after := by
    simp only [add] at succeeded
    split at succeeded
    · cases succeeded
    · cases succeeded
      exact areKeys.insert isKey value
  cases slot with
  | key name ended =>
      simp only [commit] at committed
      split at committed
      · cases committed
        exact areKeys
      · cases committed
  | bare key token spaced =>
      simp only [commit] at committed
      split at committed
      · cases committed
      · split at committed
        · exact added hasKey committed
        · cases committed
  | quoted key text quotation => exact added hasKey committed

theorem hasKey_write {slot next : Slot} {character : Char} {here : Position}
    (hasKey : slot.HasKey) (written : write slot character here = .ok next) : next.HasKey := by
  cases slot with
  | key name ended =>
      simp only [write] at written
      split at written
      · split at written
        · cases written
        · next nonempty =>
            cases written
            exact ⟨by simpa using nonempty, hasKey⟩
      · split at written
        · next accepted =>
            cases written
            intro other member
            rw [String.toList_push] at member
            rcases List.mem_append.mp member with old | new
            · exact hasKey other old
            · rw [List.mem_singleton.mp new]
              exact (Bool.and_eq_true_iff.mp accepted).2
        · cases written
  | bare key token spaced =>
      simp only [write] at written
      split at written
      · split at written <;> cases written
        exact hasKey
      · cases written
        exact hasKey
  | quoted key text quotation =>
      simp only [write] at written
      split at written <;> cases written
      exact hasKey

/-- What a step leaves of the keys: those of the list, or of the arguments that it closes with. -/
def KeysAcceptedAfter : Progress ArgumentList Arguments → Prop
  | .waiting list => list.KeysAccepted
  | .closed arguments => HasKeys arguments

theorem keysAccepted_step {list : ArgumentList} {character : Char} {here : Position}
    {progress : Progress ArgumentList Arguments} (accepted : list.KeysAccepted)
    (stepped : list.step character here = .ok progress) : KeysAcceptedAfter progress := by
  obtain ⟨openedAt, arguments, slot⟩ := list
  obtain ⟨complete, hasKey⟩ := accepted
  simp only [step] at stepped
  split at stepped
  · cases stepped
  split at stepped
  · cases stepped
    refine ⟨complete, ?_⟩
    split
    · exact hasKey
    · split <;> exact hasKey
  · cases stepped
    exact ⟨complete, hasKey⟩
  · simp only [stepOutside] at stepped
    split at stepped
    · obtain ⟨after, committed, closed⟩ := bind_eq_ok_iff.mp stepped
      cases closed
      exact hasKeys_commit complete hasKey committed
    split at stepped
    · obtain ⟨after, committed, waiting⟩ := bind_eq_ok_iff.mp stepped
      cases waiting
      exact ⟨hasKeys_commit complete hasKey committed, Slot.hasKey_empty⟩
    split at stepped
    · cases stepped
      refine ⟨complete, ?_⟩
      cases slot <;> exact hasKey
    · obtain ⟨next, written, waiting⟩ := bind_eq_ok_iff.mp stepped
      cases waiting
      exact ⟨complete, hasKey_write hasKey written⟩

end ArgumentList

def Pending.Accepted : Pending → Prop
  | .nothing => True
  | .named name _ _ => IsName name
  | .called name _ arguments => IsName name ∧ HasKeys arguments

theorem Pending.Accepted.ended {pending : Pending} (accepted : pending.Accepted) :
    pending.ended.Accepted := by
  cases pending <;> exact accepted

namespace OnePass

def Frame.Accepted : Frame → Prop
  | .set => True
  | .branch name arguments before => IsName name ∧ HasKeys arguments ∧ AllWellFormed before

def Place.Accepted : Place → Prop
  | .between pending | .comment pending => pending.Accepted
  | .arguments name _ list => IsName name ∧ list.KeysAccepted

namespace Reader

structure Accepted (reader : Reader) : Prop where
  frames : ∀ frame ∈ reader.frames, frame.Accepted
  selections : AllWellFormed reader.selections
  place : reader.place.Accepted

theorem accepted_start : start.Accepted := ⟨nofun, trivial, trivial⟩

theorem allWellFormed_flush {selections complete : List Selection} {pending : Pending}
    (wellFormed : AllWellFormed selections) (accepted : pending.Accepted)
    (flushed : flush selections pending = some complete) : AllWellFormed complete := by
  cases pending with
  | nothing =>
      cases flushed
      exact wellFormed
  | named name start ended =>
      cases flushed
      exact allWellFormed_append wellFormed ⟨accepted, trivial⟩
  | called => cases flushed

theorem accepted_openBlock {limit : DepthLimit} {outermost : Nat} {frames : List Frame}
    {selections : List Selection} {name : String} {arguments : Arguments} {next : Reader}
    (outside : ∀ frame ∈ frames, frame.Accepted) (wellFormed : AllWellFormed selections)
    (isName : IsName name) (areKeys : HasKeys arguments)
    (opened : openBlock limit outermost frames selections name arguments = some next) :
    next.Accepted := by
  simp only [openBlock] at opened
  split at opened
  · cases opened
  · cases opened
    refine ⟨?_, trivial, trivial⟩
    intro frame member
    cases member with
    | head => exact ⟨isName, areKeys, wellFormed⟩
    | tail _ older => exact outside frame older

theorem accepted_closeBrace {frames : List Frame} {selections : List Selection}
    {pending : Pending} {next : Reader} (outside : ∀ frame ∈ frames, frame.Accepted)
    (wellFormed : AllWellFormed selections) (accepted : pending.Accepted)
    (closed : closeBrace frames selections pending = some next) : next.Accepted := by
  obtain ⟨complete, flushed, closed⟩ := Option.bind_eq_some_iff.mp closed
  have inner : AllWellFormed complete := allWellFormed_flush wellFormed accepted flushed
  cases frames with
  | nil => cases closed
  | cons frame outer =>
      have further : ∀ frame ∈ outer, frame.Accepted := fun frame member =>
        outside frame (List.mem_cons_of_mem _ member)
      cases frame with
      | set =>
          cases closed
          exact ⟨further, inner, trivial⟩
      | branch name arguments before =>
          cases closed
          obtain ⟨isName, areKeys, older⟩ :=
            outside (.branch name arguments before) List.mem_cons_self
          exact ⟨further, allWellFormed_append older ⟨⟨isName, areKeys, inner⟩, trivial⟩, trivial⟩

theorem accepted_writeName {frames : List Frame} {selections : List Selection}
    {character : Char} {here : Position} {pending : Pending} {next : Reader}
    (outside : ∀ frame ∈ frames, frame.Accepted) (wellFormed : AllWellFormed selections)
    (accepted : pending.Accepted) (ofName : isNameCharacter character = true)
    (written : writeName frames selections character here pending = some next) :
    next.Accepted := by
  have begun {complete : List Selection} (flushed : flush selections pending = some complete) :
      Accepted ⟨frames, complete, .between (.named (String.singleton character) here false)⟩ := by
    refine ⟨outside, allWellFormed_flush wellFormed accepted flushed, by simp, ?_⟩
    intro other member
    rw [String.toList_singleton, List.mem_singleton] at member
    exact member ▸ ofName
  have joined {name : String} (start : Position) (isName : IsName name) :
      Accepted ⟨frames, selections, .between (.named (name.push character) start false)⟩ := by
    refine ⟨outside, wellFormed, by simp, ?_⟩
    intro other member
    rw [String.toList_push] at member
    rcases List.mem_append.mp member with old | new
    · exact isName.2 other old
    · exact List.mem_singleton.mp new ▸ ofName
  cases pending with
  | nothing =>
      cases written
      exact begun rfl
  | named name start ended =>
      cases ended <;> cases written
      · exact joined start accepted
      · exact begun rfl
  | called => cases written

theorem accepted_stepBetween {limit : DepthLimit} {outermost : Nat} {frames : List Frame}
    {selections : List Selection} {pending : Pending} {character : Char} {here : Position}
    {next : Reader} (outside : ∀ frame ∈ frames, frame.Accepted)
    (wellFormed : AllWellFormed selections) (accepted : pending.Accepted)
    (stepped : stepBetween limit outermost frames selections pending character here = some next) :
    next.Accepted := by
  simp only [stepBetween] at stepped
  split at stepped
  · cases stepped
    exact ⟨outside, wellFormed, accepted.ended⟩
  split at stepped
  · obtain ⟨complete, flushed, waiting⟩ := Option.bind_eq_some_iff.mp stepped
    cases waiting
    exact ⟨outside, allWellFormed_flush wellFormed accepted flushed, trivial⟩
  split at stepped
  · cases stepped
    exact ⟨outside, wellFormed, accepted.ended⟩
  split at stepped
  · cases pending with
    | named name start ended =>
        cases stepped
        exact ⟨outside, wellFormed, accepted, ArgumentList.keysAccepted_opened here⟩
    | nothing => cases stepped
    | called => cases stepped
  split at stepped
  · cases pending with
    | nothing =>
        cases stepped
        refine ⟨?_, wellFormed, trivial⟩
        intro frame member
        cases member with
        | head => trivial
        | tail _ older => exact outside frame older
    | named name start ended =>
        exact accepted_openBlock outside wellFormed accepted hasKeys_empty stepped
    | called name start arguments =>
        exact accepted_openBlock outside wellFormed accepted.1 accepted.2 stepped
  split at stepped
  · exact accepted_closeBrace outside wellFormed accepted stepped
  split at stepped
  · next ofName => exact accepted_writeName outside wellFormed accepted ofName stepped
  · cases stepped

theorem accepted_step {limit : DepthLimit} {outermost : Nat} {reader next : Reader}
    {character : Char} {here : Position} (accepted : reader.Accepted)
    (stepped : reader.step limit outermost character here = some next) : next.Accepted := by
  obtain ⟨frames, selections, place⟩ := reader
  obtain ⟨outside, wellFormed, accepted⟩ := accepted
  cases place with
  | between pending => exact accepted_stepBetween outside wellFormed accepted stepped
  | comment pending =>
      simp only [step] at stepped
      split at stepped <;> cases stepped
      · exact ⟨outside, wellFormed, accepted⟩
      · exact ⟨outside, wellFormed, accepted⟩
  | arguments name start list =>
      simp only [step] at stepped
      split at stepped
      · cases stepped
      · next list waiting =>
          cases stepped
          exact ⟨outside, wellFormed, accepted.1,
            ArgumentList.keysAccepted_step accepted.2 waiting⟩
      · next arguments closed =>
          cases stepped
          exact ⟨outside, wellFormed, accepted.1,
            ArgumentList.keysAccepted_step accepted.2 closed⟩

theorem accepted_run {limit : DepthLimit} {outermost : Nat} {reader last : Reader}
    {here : Position} {characters : List Char} (accepted : reader.Accepted)
    (ran : reader.run limit outermost here characters = some last) : last.Accepted := by
  induction characters generalizing reader here with
  | nil =>
      cases ran
      exact accepted
  | cons character rest ih =>
      obtain ⟨next, stepped, onward⟩ := Option.bind_eq_some_iff.mp ran
      exact ih (accepted_step accepted stepped) onward

theorem allWellFormed_finish {reader : Reader} {selections : List Selection}
    (accepted : reader.Accepted) (finished : reader.finish = some selections) :
    AllWellFormed selections := by
  obtain ⟨frames, complete, place⟩ := reader
  cases frames with
  | cons => cases finished
  | nil =>
      cases place with
      | between pending => exact allWellFormed_flush accepted.selections accepted.place finished
      | comment pending => exact allWellFormed_flush accepted.selections accepted.place finished
      | arguments => cases finished

end Reader

theorem allWellFormed_of_read {limit : DepthLimit} {text : String} {selections : List Selection}
    (finished : read limit text = some selections) : AllWellFormed selections := by
  obtain ⟨last, ran, finished⟩ := Option.bind_eq_some_iff.mp finished
  exact Reader.allWellFormed_finish (Reader.accepted_run Reader.accepted_start ran) finished

end OnePass

end FieldQuery.Query
