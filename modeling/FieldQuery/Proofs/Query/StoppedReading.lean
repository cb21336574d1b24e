import FieldQuery.Proofs.Query.BlockOpenings
import FieldQuery.Proofs.Query.OnePassAgreement

/-!
# Where a limited parse stops

A text that the unlimited parse accepts is read under a limit up to the brace that a limited reader
refuses. The parse notices only when the block behind the brace is closed and looked into, but it
reports the place behind that brace.
-/

set_option autoImplicit false

namespace FieldQuery.Query

open Fallible OnePass

variable {limit : DepthLimit} {depth : Nat}

theorem OnePass.Follows.unlimited {here : Position} {level : Level} {selections : List Selection}
    {reader : Reader} (follows : Follows limit depth here level selections reader) :
    Follows .unlimited depth here level selections reader := by
  cases follows with
  | between => exact .between
  | comment => exact .comment
  | arguments => exact .arguments
  | block collects =>
      obtain ⟨_, ran, stands, watches⟩ := collects
      exact .block ⟨rfl, Reader.run_unlimited_of_run ran, stands, watches⟩

/-- What a level accepts, a reader that follows it accepts as well. -/
theorem step_of_readScan {here : Position} {level : Level} {selections read : List Selection}
    {reader : Reader} {character : Char} {rest : List Char}
    (follows : Follows .unlimited depth here level selections reader)
    (accepted : readScan .unlimited depth (level.scan here (character :: rest)) = .ok read) :
    ∃ next, reader.step .unlimited depth character here = some next := by
  have alike := readScan_follows (character :: rest) follows fun _ _ origin body _ =>
    readsAlike .unlimited (depth + 1) origin body
  rw [accepted, Reader.run_cons] at alike
  cases stepped : reader.step .unlimited depth character here with
  | none =>
      rw [stepped] at alike
      cases alike
  | some next => exact ⟨next, rfl⟩

/-- Where a limited reading stops in the text of an open block so far: before the first character
if the block lies too deep, and otherwise where a reader of the text does. -/
inductive StopsIn (limit : DepthLimit) (depth : Nat) (block : Block) : Position → Prop where
  | atOrigin (tooDeep : limit.exceededBy depth = true) : StopsIn limit depth block block.origin
  | inside {position : Position} (allowed : limit.exceededBy depth = false)
      (refused : Reader.start.RefusedAt limit depth block.origin block.text.toList position) :
      StopsIn limit depth block position

theorem StopsIn.extend {block : Block} {position : Position}
    (stops : StopsIn limit depth block position) (character : Char) :
    StopsIn limit depth (block.extend character) position := by
  cases stops with
  | atOrigin tooDeep => exact .atOrigin tooDeep
  | inside allowed refused =>
      refine .inside allowed ?_
      rw [Block.toList_text_extend]
      exact refused.append [character]

def StopsWhereRefused (limit : DepthLimit) (depth : Nat) (origin : Position) (text : String) :
    Prop :=
  ∀ read position, parseLevel .unlimited depth origin text = .ok read →
    limit.exceededBy depth = false →
    Reader.start.RefusedAt limit depth origin text.toList position →
    parseLevel limit depth origin text = .error (.depthLimitExceeded limit position)

theorem readEntry_of_stopsIn {block : Block} {position : Position} {name : String}
    {arguments : Arguments} {selection : Selection} (stops : StopsIn limit (depth + 1) block position)
    (nested : StopsWhereRefused limit (depth + 1) block.origin block.text)
    (accepted : readEntry .unlimited depth (.block name arguments block.origin block.text) =
      .ok selection) :
    readEntry limit depth (.block name arguments block.origin block.text) =
      .error (.depthLimitExceeded limit position) := by
  obtain ⟨inner, parsed, _⟩ := bind_eq_ok_iff.mp accepted
  have stopped : parseLevel limit (depth + 1) block.origin block.text =
      .error (.depthLimitExceeded limit position) := by
    cases stops with
    | atOrigin tooDeep => rw [parseLevel_eq, if_pos tooDeep]
    | inside allowed refused => exact nested inner position parsed allowed refused
  simp only [readEntry, stopped]
  rfl

def BlocksStop (limit : DepthLimit) (depth : Nat) (entries : List Entry) : Prop :=
  ∀ name arguments origin body, .block name arguments origin body ∈ entries →
    StopsWhereRefused limit (depth + 1) origin body

/-- The level goes on collecting the block, and stops there once the block is closed. -/
theorem readScan_of_stopsIn {openSets : List Position} {name : String} {arguments : Arguments}
    {block : Block} {here position : Position} {rest : List Char} {read : List Selection}
    (stops : StopsIn limit (depth + 1) block position)
    (accepted : readScan .unlimited depth
      (Level.scan ⟨openSets, .block name arguments block⟩ here rest) = .ok read)
    (nested : BlocksStop limit depth
      (Level.scan ⟨openSets, .block name arguments block⟩ here rest).entries) :
    readScan limit depth (Level.scan ⟨openSets, .block name arguments block⟩ here rest) =
      .error (.depthLimitExceeded limit position) := by
  induction rest generalizing block here with
  | nil => cases accepted
  | cons character rest ih =>
      simp only [Level.scan, Level.step] at accepted nested ⊢
      cases outcome : block.step character here with
      | error fault =>
          rw [outcome] at accepted
          cases accepted
      | ok progress =>
          rw [outcome] at accepted nested
          cases progress with
          | waiting extended =>
              cases Block.eq_extend_of_step outcome
              exact ih (stops.extend character) accepted nested
          | closed text =>
              cases Block.eq_text_of_step outcome
              obtain ⟨selection, entered, _⟩ :=
                bind_eq_ok_iff.mp ((readScan_prepend _ _ _ _).symm.trans accepted)
              have stopped := readEntry_of_stopsIn stops
                (nested name arguments block.origin block.text List.mem_cons_self) entered
              refine (readScan_prepend _ _ _ _).trans ?_
              rw [stopped]
              rfl

theorem readScan_of_refused {level : Level} {selections read : List Selection} {reader : Reader}
    {here : Position} {character : Char} {rest : List Char}
    (follows : Follows limit depth here level selections reader)
    (refused : reader.step limit depth character here = none)
    (accepted : readScan .unlimited depth (level.scan here (character :: rest)) = .ok read)
    (nested : BlocksStop limit depth (level.scan here (character :: rest)).entries) :
    readScan limit depth (level.scan here (character :: rest)) =
      .error (.depthLimitExceeded limit (here.advance character)) := by
  obtain ⟨next, passed⟩ := step_of_readScan follows.unlimited accepted
  obtain ⟨⟨rfl, pending, place, isField⟩, tooDeep⟩ := Reader.opens_of_refused refused passed
  cases follows with
  | comment => cases place
  | arguments => cases place
  | @between openSets _ pending =>
      cases place
      rw [blocks_sets, Nat.add_zero] at tooDeep
      have stops : StopsIn limit (depth + 1) (.opened here) (here.advance '{') := .atOrigin tooDeep
      cases pending with
      | nothing => exact absurd rfl isField
      | named name start ended =>
          exact readScan_of_stopsIn stops accepted nested
      | called name start arguments =>
          exact readScan_of_stopsIn stops accepted nested
  | @block openSets _ name arguments block inner collects =>
      have inside : ¬ inner.Closes '{' := fun closes => absurd closes.2.1 (by decide)
      have lifted := Reader.step_under inside limit depth
        (.branch name arguments selections :: sets openSets) here
      simp only [blocks, blocks_sets, Nat.zero_add] at lifted
      rw [refused] at lifted
      have refusedInside := Option.map_eq_none_iff.mp lifted.symm
      have stops : StopsIn limit (depth + 1) (block.extend '{') (here.advance '{') := by
        refine .inside collects.allowed ?_
        rw [Block.toList_text_extend]
        apply Reader.refusedAt_of_run collects.ran
        rw [collects.stands]
        exact .here refusedInside
      simp only [Level.scan, Level.step] at accepted nested ⊢
      cases outcome : block.step '{' here with
      | error fault =>
          rw [outcome] at accepted
          cases accepted
      | ok progress =>
          rw [outcome] at accepted nested
          cases progress with
          | waiting extended =>
              cases Block.eq_extend_of_step outcome
              exact readScan_of_stopsIn stops accepted nested
          | closed text =>
              have closed := (Reader.step_closed_iff here collects.watches).mp outcome
              exact absurd closed.1 inside

theorem readScan_of_refusedAt {level : Level} {selections read : List Selection}
    {reader : Reader} {here position : Position} {rest : List Char}
    (refused : reader.RefusedAt limit depth here rest position)
    (follows : Follows limit depth here level selections reader)
    (accepted : readScan .unlimited depth (level.scan here rest) = .ok read)
    (nested : BlocksStop limit depth (level.scan here rest).entries) :
    readScan limit depth (level.scan here rest) =
      .error (.depthLimitExceeded limit position) := by
  induction refused generalizing level selections read with
  | here refused => exact readScan_of_refused follows refused accepted nested
  | @later reader next here position character rest stepped further ih =>
      have alike := step_alike character follows fun _ _ _ origin body _ =>
        readsAlike limit (depth + 1) origin body
      rw [stepped] at alike
      simp only [Level.scan] at accepted nested ⊢
      generalize level.step character here = outcome at alike accepted nested
      cases alike with
      | waits follows => exact ih follows accepted nested
      | completes succeeded follows =>
          rw [toOption_eq_some_iff] at succeeded
          rw [readScan_prepend] at accepted ⊢
          obtain ⟨_, _, accepted⟩ := bind_eq_ok_iff.mp accepted
          obtain ⟨later, acceptedLater, _⟩ := bind_eq_ok_iff.mp accepted
          have stopped := ih follows acceptedLater fun name arguments origin body member =>
            nested name arguments origin body (List.mem_cons_of_mem _ member)
          rw [succeeded, stopped]
          rfl

theorem stopsWhereRefused (limit : DepthLimit) (depth : Nat) (origin : Position) (text : String) :
    StopsWhereRefused limit depth origin text := by
  intro read position accepted allowed refused
  rw [parseLevel_unlimited] at accepted
  rw [parseLevel_of_allowed allowed]
  apply readScan_of_refusedAt refused .between accepted
  intro name arguments within body member
  exact stopsWhereRefused limit (depth + 1) within body
termination_by text.length
decreasing_by exact Level.length_text_lt_of_mem_scan ‹_›

end FieldQuery.Query
