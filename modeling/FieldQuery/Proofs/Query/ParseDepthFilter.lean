import FieldQuery.Proofs.Query.Nesting
import FieldQuery.Proofs.Query.Relocation
import FieldQuery.Proofs.Query.StoppedReading

/-!
# The depth limit of the parser as a filter

A limit only decides whether a text is let pass. What it does not let pass it stops right behind
the first brace that opens a block beyond the limit. Nameless braces round a text do not bring it
closer to the limit.
-/

set_option autoImplicit false

namespace FieldQuery.Query

open Fallible OnePass

namespace OnePass.Reader

variable {limit : DepthLimit} {outermost : Nat} {last : Reader} {selections : List Selection}

/-- Where a text may end, a line feed and a brace close what is open around it. -/
theorem run_close (finished : last.finish = some selections) (frame : Frame) (outer : List Frame)
    (here : Position) :
    (last.under (frame :: outer)).run limit outermost here ['\n', '}'] =
      closeBrace (frame :: outer) selections .nothing := by
  obtain ⟨frames, complete, place⟩ := last
  cases frames with
  | cons => cases place <;> cases finished
  | nil =>
      have close (pending : Pending) (flushed : flush complete pending = some selections)
          (here : Position) :
          Reader.run limit outermost ⟨frame :: outer, complete, .between pending⟩ here ['}'] =
            closeBrace (frame :: outer) selections .nothing := by
        have stepped : Reader.step limit outermost ⟨frame :: outer, complete, .between pending⟩
            '}' here = closeBrace (frame :: outer) complete pending := rfl
        rw [run_cons, stepped]
        simp only [closeBrace, flushed]
        cases frame <;> rfl
      cases place with
      | arguments => cases finished
      | between pending =>
          exact close pending.ended ((flush_ended complete pending).trans finished) _
      | comment pending => exact close pending finished _

/-- Between a head that opens a frame and the brace that closes it, a text is read by itself. -/
theorem run_enclosed {origin : Position} {head text : List Char} {frame : Frame}
    (opened : start.run limit outermost origin head = some (start.under [frame]))
    (inside : (start.run limit (outermost + blocks [frame]) (origin.after head) text).bind finish =
      some selections) :
    start.run limit outermost origin (head ++ (text ++ ['\n', '}'])) =
      closeBrace [frame] selections .nothing := by
  obtain ⟨last, ran, finished⟩ := Option.bind_eq_some_iff.mp inside
  rw [run_append, opened, Option.bind_some, run_append, run_under ran, Option.bind_some,
    run_close finished]

end OnePass.Reader

def braced (text : String) : String := "\x7b" ++ text ++ "\n\x7d"

theorem readLevel_braced {limit : DepthLimit} {depth : Nat} {origin : Position} {text : String}
    {selections : List Selection}
    (read : readLevel limit depth (origin.advance '{') text = some selections) :
    readLevel limit depth origin (braced text) = some selections := by
  have characters : (braced text).toList = ['{'] ++ (text.toList ++ ['\n', '}']) := by
    simp [braced]
  have opened : Reader.start.run limit depth origin ['{'] = some (Reader.start.under [.set]) := rfl
  rw [readLevel, characters, Reader.run_enclosed opened read]
  rfl

theorem parseLevel_braced {limit : DepthLimit} {depth : Nat} {origin : Position} {text : String}
    {selections : List Selection} (parsed : parseLevel limit depth origin text = .ok selections) :
    parseLevel limit depth origin (braced text) = .ok selections := by
  have elsewhere : parseLevel limit depth (origin.advance '{') text = .ok selections := by
    rw [parseLevel_at] at parsed ⊢
    cases atStart : parseLevel limit depth .start text with
    | error error =>
        rw [atStart] at parsed
        cases parsed
    | ok read =>
        rw [atStart] at parsed
        exact parsed
  have alike := readsAlike limit depth (origin.advance '{') text
  have alikeBraced := readsAlike limit depth origin (braced text)
  rw [ReadsAlike, elsewhere] at alike
  rw [← toOption_eq_some_iff, alikeBraced]
  split at alike
  · cases alike
  · next allowed =>
      rw [if_neg allowed]
      exact readLevel_braced alike.symm

theorem stops_of_levels_gt {limit : DepthLimit} (limited : limit ≠ .unlimited) {text : String}
    {selections : List Selection} (parsed : parse .unlimited text = .ok selections)
    (tooMany : limit.maximum.toNat < levels selections) :
    ∃ index, OpensBlock text index (limit.maximum.toNat + 1) ∧
      (∀ earlier < index, ¬ OpensBlock text earlier (limit.maximum.toNat + 1)) ∧
      parse limit text = .error (.depthLimitExceeded limit
        (Position.start.after (text.toList.take (index + 1)))) := by
  have whole : OnePass.read .unlimited text = some selections := by
    rw [← toOption_parse, parsed]
    rfl
  obtain ⟨last, accepted, finished⟩ := Option.bind_eq_some_iff.mp whole
  cases ran : Reader.start.run limit 1 .start text.toList with
  | some other =>
      -- A limited reader that comes to the end has read what the unlimited one has.
      obtain rfl : other = last :=
        Option.some.inj ((Reader.run_unlimited_of_run ran).symm.trans accepted)
      have passed : parse limit text = .ok selections := by
        rw [← toOption_eq_some_iff, toOption_parse, OnePass.read, readLevel, ran]
        exact finished
      have bound := ((parse_eq_ok_iff_of_limited limited).mp passed).2
      omega
  | none =>
      obtain ⟨position, refused⟩ := Reader.refusedAt_of_run_eq_none ran
      have stopped := stopsWhereRefused limit 1 .start text selections position parsed
        limit.exceededBy_one refused
      obtain ⟨index, opens, isFirst, rfl⟩ := opensBlock_of_refusedAt limited accepted refused
      exact ⟨index, opens, isFirst, stopped⟩

/-- A limited parse gives what the unlimited one gives or stops at the limit. Of the texts that the
unlimited parse accepts it lets pass those without a level beyond the limit, and it stops behind
the brace of the first block that lies there. Nameless braces round a level, at any depth, leave
it at its depth. -/
theorem parse_filtered_by_limit {limit : DepthLimit} (limited : limit ≠ .unlimited)
    (text : String) :
    (parse limit text = parse .unlimited text ∨
      ∃ position, parse limit text = .error (.depthLimitExceeded limit position)) ∧
    (∀ selections, parse .unlimited text = .ok selections →
      (levels selections ≤ limit.maximum.toNat → parse limit text = .ok selections) ∧
      (limit.maximum.toNat < levels selections →
        ∃ index, OpensBlock text index (limit.maximum.toNat + 1) ∧
          (∀ earlier < index, ¬ OpensBlock text earlier (limit.maximum.toNat + 1)) ∧
          parse limit text = .error (.depthLimitExceeded limit
            (Position.start.after (text.toList.take (index + 1)))))) ∧
    ∀ depth origin selections, parseLevel limit depth origin text = .ok selections →
      parseLevel limit depth origin (braced text) = .ok selections := by
  refine ⟨?_, ?_, fun depth origin selections passed => parseLevel_braced passed⟩
  · rcases narrows_parseLevel limit 1 .start text with same | ⟨fault, stopped, position, rfl⟩
    · exact .inl same
    · exact .inr ⟨position, stopped⟩
  · intro selections parsed
    constructor
    · intro fits
      exact (parse_eq_ok_iff_of_limited limited).mpr ⟨parsed, fits⟩
    · intro tooMany
      exact stops_of_levels_gt limited parsed tooMany

def bracedText : String := "\x7b a \x7b\x7b b \x7d\x7d\n c \x7b d \x7b\x7d \x7d \x7d"

theorem parse_bracedText :
    let selections : List Selection :=
      [.branch "a" .empty [.leaf "b"], .branch "c" .empty [.branch "d" .empty []]]
    parse .unlimited bracedText = .ok selections ∧ parse ⟨3⟩ bracedText = .ok selections ∧
      parse ⟨3⟩ (braced bracedText) = .ok selections ∧
      ∃ index, OpensBlock bracedText index 3 ∧
        (∀ earlier < index, ¬ OpensBlock bracedText earlier 3) ∧
        parse ⟨2⟩ bracedText = .error (.depthLimitExceeded ⟨2⟩
          (Position.start.after (bracedText.toList.take (index + 1)))) := by
  intro selections
  have parsed : parse .unlimited bracedText = .ok selections := by
    rw [← toOption_eq_some_iff, toOption_parse]
    decide +kernel
  have levelsOf : levels selections = 3 := by simp [selections, levels]
  have three : (⟨3⟩ : DepthLimit) ≠ .unlimited := by decide
  have two : (⟨2⟩ : DepthLimit) ≠ .unlimited := by decide
  obtain ⟨_, accepted, around⟩ := parse_filtered_by_limit three bracedText
  have passed := (accepted selections parsed).1 (by rw [levelsOf]; decide)
  have within := around 1 .start selections passed
  have stopped := ((parse_filtered_by_limit two bracedText).2.1 selections parsed).2
    (by rw [levelsOf]; decide)
  exact ⟨parsed, passed, within, stopped⟩

end FieldQuery.Query
