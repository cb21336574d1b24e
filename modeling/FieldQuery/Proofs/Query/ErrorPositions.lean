import FieldQuery.Proofs.DepthLimit
import FieldQuery.Proofs.Query.BlockAgreement
import FieldQuery.Proofs.Query.ErrorPlaces
import FieldQuery.Proofs.Query.LevelEntries

/-!
# Positions of errors

Every position that a level holds is that of a character of the whole text, since the text of a
block is just what stands behind its brace. So an error points into the whole text however deep
the level is in which it arises.
-/

set_option autoImplicit false

namespace FieldQuery.Query

open Fallible

/-- What is pending stands in what is read. A name that may grow stands at its end. -/
def Pending.Located (text : List Char) : Pending → Prop
  | .nothing => True
  | .named name start false =>
      name ≠ "" ∧ ∃ front, text = front ++ name.toList ∧ start = Position.start.after front
  | .named name start true | .called name start _ => Written text name start

theorem Pending.Located.ended {text : List Char} {pending : Pending}
    (located : pending.Located text) : pending.ended.Located text := by
  cases pending with
  | nothing => exact located
  | called => exact located
  | named name start ended =>
      cases ended with
      | true => exact located
      | false =>
          obtain ⟨nonempty, front, rfl, start⟩ := located
          exact ⟨nonempty, front, [], by rw [List.append_nil], start⟩

/-- An ended name stays where it is. -/
theorem Pending.Located.append {text : List Char} {pending : Pending}
    (located : pending.ended.Located text) (more : List Char) :
    pending.ended.Located (text ++ more) := by
  cases pending with
  | nothing => exact located
  | called => exact Written.append located more
  | named => exact Written.append located more

theorem Pending.Located.pointsInto_of_flush {text : List Char} {pending : Pending}
    (located : pending.Located text) {error : ParseError} (failed : pending.flush = .error error) :
    error.PointsInto text := by
  cases pending with
  | nothing => cases failed
  | named => cases failed
  | called name start arguments =>
      cases failed
      exact Written.pointsInto located

/-- A block stands at the end of what is read: its brace, then just its text. -/
def Block.Located (text : List Char) (block : Block) : Prop :=
  ∃ front, text = front ++ '{' :: block.text.toList ∧
    block.openedAt = Position.start.after front ∧
    block.origin = Position.start.after (front ++ ['{'])

def Focus.Located (text : List Char) : Focus → Prop
  | .between pending => pending.Located text
  | .comment pending => pending.ended = pending ∧ pending.Located text
  | .arguments name start list => Written text name start ∧ Marks text '(' list.openedAt
  | .block _ _ collected => collected.Located text

def Entry.Located (text : List Char) : Entry → Prop
  | .leaf _ => True
  | .block _ _ origin body =>
      ∃ front character back, text = front ++ '{' :: (body.toList ++ character :: back) ∧
        origin = Position.start.after (front ++ ['{'])

theorem Entry.Located.append {text : List Char} {entry : Entry} (located : entry.Located text)
    (more : List Char) : entry.Located (text ++ more) := by
  cases entry with
  | leaf => trivial
  | block name arguments origin body =>
      obtain ⟨front, character, back, rfl, origin⟩ := located
      exact ⟨front, character, back ++ more, by simp, origin⟩

namespace Level

/-- Everything that a level holds stands in what is read. -/
structure Located (text : List Char) (level : Level) : Prop where
  openSets : ∀ opening ∈ level.openSets, Marks text '{' opening
  focus : level.focus.Located text

theorem located_start (text : List Char) : start.Located text := ⟨nofun, trivial⟩

theorem marks_append {text : List Char} {openSets : List Position}
    (marks : ∀ opening ∈ openSets, Marks text '{' opening) (more : List Char) :
    ∀ opening ∈ openSets, Marks (text ++ more) '{' opening :=
  fun opening member => (marks opening member).append more

/-- A step keeps everything in place, and its error points into the text, whatever follows. -/
def Places (text : List Char) (character : Char) : Outcome → Prop
  | .error error => ∀ rest, error.PointsInto (text ++ character :: rest)
  | .ok (next, entry) =>
      next.Located (text ++ [character]) ∧
        ∀ complete ∈ entry, complete.Located (text ++ [character])

theorem places_of_blames {text : List Char} {character : Char} {error : ParseError}
    (blames : error.Blames (Position.start.after text) character) :
    Places text character (.error error) := fun rest => blames.pointsInto rest

theorem places_wait {text : List Char} {character : Char} {next : Level}
    (located : next.Located (text ++ [character])) : Places text character (.ok (next, none)) :=
  ⟨located, nofun⟩

theorem places_flush {text : List Char} {character : Char} (pending : Pending) {next : Level}
    (pendingLocated : pending.Located text) (located : next.Located (text ++ [character])) :
    Places text character (do
      let entry ← pending.flush
      return (next, entry)) := by
  cases pending with
  | nothing => exact places_wait located
  | named name start ended =>
      refine ⟨located, ?_⟩
      intro complete member
      cases member
      trivial
  | called name start arguments =>
      intro rest
      exact (pendingLocated.pointsInto_of_flush rfl).append _

section

variable {text : List Char} {openSets : List Position}
  (marks : ∀ opening ∈ openSets, Marks text '{' opening)
include marks

theorem places_openArguments {pending : Pending} (located : pending.Located text) :
    Places text '(' (openArguments openSets pending (Position.start.after text)) := by
  cases pending with
  | nothing => exact places_of_blames ⟨rfl, rfl⟩
  | called => exact places_of_blames ⟨rfl, rfl⟩
  | named name start ended =>
      have written : Written text name start := by
        cases ended with
        | true => exact located
        | false => exact Pending.Located.ended located
      exact places_wait ⟨marks_append marks _, written.append _, marks_last text '('⟩

theorem located_opened (name : String) (arguments : Arguments) :
    Located (text ++ ['{'])
      ⟨openSets, .block name arguments (.opened (Position.start.after text))⟩ := by
  refine ⟨marks_append marks _, text, rfl, rfl, ?_⟩
  rw [Position.after_append]
  rfl

theorem places_openBrace (pending : Pending) :
    Places text '{' (openBrace openSets pending (Position.start.after text)) := by
  cases pending with
  | nothing =>
      refine places_wait ⟨?_, trivial⟩
      intro opening member
      rcases List.mem_cons.mp member with rfl | outer
      · exact marks_last text '{'
      · exact marks_append marks _ opening outer
  | named => exact places_wait (located_opened marks _ _)
  | called => exact places_wait (located_opened marks _ _)

theorem places_closeBrace {pending : Pending} (located : pending.Located text) :
    Places text '}' (closeBrace openSets pending (Position.start.after text)) := by
  cases openSets with
  | nil =>
      cases pending with
      | nothing => exact places_of_blames ⟨rfl, rfl⟩
      | named => exact places_of_blames ⟨rfl, rfl⟩
      | called =>
          intro rest
          exact (located.pointsInto_of_flush rfl).append _
  | cons innermost outer =>
      refine places_flush pending located ⟨?_, trivial⟩
      intro opening member
      exact marks_append marks _ opening (List.mem_cons_of_mem _ member)

theorem places_writeName {pending : Pending} (located : pending.Located text) (character : Char) :
    Places text character
      (writeName openSets pending character (Position.start.after text)) := by
  have begun : Located (text ++ [character])
      ⟨openSets, .between (.named (String.singleton character) (Position.start.after text)
        false)⟩ :=
    ⟨marks_append marks _, by simp, text, by simp, rfl⟩
  cases pending with
  | nothing => exact places_flush .nothing located begun
  | called name start arguments => exact places_flush (.called name start arguments) located begun
  | named name start ended =>
      cases ended with
      | true => exact places_flush (.named name start true) located begun
      | false =>
          obtain ⟨nonempty, front, rfl, start⟩ := located
          refine places_wait ⟨marks_append marks _, by simp, front, ?_, start⟩
          rw [String.toList_push, List.append_assoc]

theorem places_stepBetween {pending : Pending} (located : pending.Located text)
    (character : Char) :
    Places text character
      (stepBetween openSets pending character (Position.start.after text)) := by
  have settled := located.ended.append [character]
  have marksBehind := marks_append marks [character]
  simp only [stepBetween]
  split
  · exact places_wait ⟨marksBehind, by cases pending <;> rfl, settled⟩
  split
  · exact places_flush pending located ⟨marksBehind, trivial⟩
  split
  · exact places_wait ⟨marksBehind, settled⟩
  split
  · next parenthesis =>
      subst parenthesis
      exact places_openArguments marks located
  split
  · next opening =>
      subst opening
      exact places_openBrace marks pending
  split
  · next closing =>
      subst closing
      exact places_closeBrace marks located
  split
  · exact places_writeName marks located character
  · exact places_of_blames ⟨rfl, rfl⟩

theorem places_arguments {name : String} {start : Position} {list : ArgumentList}
    (written : Written text name start) (opened : Marks text '(' list.openedAt)
    (character : Char) :
    Places text character
      (Level.step ⟨openSets, .arguments name start list⟩ character
        (Position.start.after text)) := by
  simp only [step]
  cases stepped : list.step character (Position.start.after text) with
  | error error => exact places_of_blames (ArgumentList.blames_of_step stepped)
  | ok progress =>
      cases progress with
      | closed arguments => exact places_wait ⟨marks_append marks _, written.append _⟩
      | waiting next =>
          refine places_wait ⟨marks_append marks _, written.append _, ?_⟩
          rw [ArgumentList.openedAt_of_step stepped]
          exact opened.append _

theorem places_block {name : String} {arguments : Arguments} {block : Block}
    (located : block.Located text) (character : Char) :
    Places text character
      (Level.step ⟨openSets, .block name arguments block⟩ character
        (Position.start.after text)) := by
  obtain ⟨front, rfl, openedAt, origin⟩ := located
  simp only [step]
  cases stepped : block.step character (Position.start.after (front ++ '{' :: block.text.toList))
    with
  | error error =>
      simp only [Block.step] at stepped
      split at stepped
      · next newline =>
          cases stepped
          exact places_of_blames ⟨rfl, newline.1⟩
      split at stepped <;> cases stepped
  | ok progress =>
      cases progress with
      | waiting next =>
          cases Block.eq_extend_of_step stepped
          refine places_wait ⟨marks_append marks _, front, ?_, openedAt, origin⟩
          rw [Block.toList_text_extend]
          simp
      | closed body =>
          cases Block.eq_text_of_step stepped
          refine ⟨⟨marks_append marks _, trivial⟩, ?_⟩
          intro complete member
          cases member
          exact ⟨front, character, [], by simp, origin⟩

end

theorem places_step {text : List Char} {level : Level} (located : level.Located text)
    (character : Char) :
    Places text character (level.step character (Position.start.after text)) := by
  obtain ⟨openSets, focus⟩ := level
  obtain ⟨marks, located⟩ := located
  cases focus with
  | between pending => exact places_stepBetween marks located character
  | arguments name start list => exact places_arguments marks located.1 located.2 character
  | block name arguments block => exact places_block marks located character
  | comment pending =>
      obtain ⟨ended, located⟩ := located
      have settled : pending.Located (text ++ [character]) := by
        rw [← ended] at located ⊢
        exact located.append _
      simp only [step]
      split
      · exact places_wait ⟨marks_append marks _, settled⟩
      · exact places_wait ⟨marks_append marks _, ended, settled⟩

theorem pointsInto_of_finish {text : List Char} {level : Level} (located : level.Located text)
    {error : ParseError} (failed : level.finish = .error error) : error.PointsInto text := by
  obtain ⟨openSets, focus⟩ := level
  obtain ⟨marks, located⟩ := located
  have ofFlush {pending : Pending} (settled : pending.Located text)
      (failed : finish ⟨openSets, .between pending⟩ = .error error) : error.PointsInto text := by
    rcases bind_eq_error_iff.mp failed with unflushed | ⟨entry, _, failed⟩
    · exact settled.pointsInto_of_flush unflushed
    · cases openSets with
      | nil => cases failed
      | cons innermost outer =>
          cases failed
          exact (marks innermost List.mem_cons_self).pointsInto rfl
  cases focus with
  | between pending => exact ofFlush located failed
  | comment pending => exact ofFlush located.2 failed
  | arguments name start list =>
      cases failed
      exact located.2.pointsInto rfl
  | block name arguments block =>
      cases failed
      obtain ⟨front, rfl, openedAt, _⟩ := located
      exact Marks.pointsInto ⟨front, block.text.toList, rfl, openedAt⟩ rfl

theorem located_of_finish {level : Level} {complete : Entry}
    (finished : level.finish = .ok (some complete)) (text : List Char) :
    complete.Located text := by
  obtain ⟨openSets, focus⟩ := level
  have ofFlush {pending : Pending}
      (finished : finish ⟨openSets, .between pending⟩ = .ok (some complete)) :
      complete.Located text := by
    cases openSets <;> cases pending <;> cases finished
    trivial
  cases focus with
  | between pending => exact ofFlush finished
  | comment pending => exact ofFlush finished
  | arguments => cases finished
  | block => cases finished

namespace Scan

/-- The blocks that a scan completes stand in the text, and so does what is wrong behind them. -/
structure Located (text : List Char) (scan : Scan) : Prop where
  entries : ∀ entry ∈ scan.entries, entry.Located text
  fault : ∀ fault, scan.fault = some fault → fault.PointsInto text

theorem located_empty (text : List Char) : Located text ⟨[], none⟩ := ⟨nofun, nofun⟩

theorem located_fault {text : List Char} {error : ParseError} (points : error.PointsInto text) :
    Located text ⟨[], some error⟩ := by
  refine ⟨nofun, ?_⟩
  intro fault same
  cases same
  exact points

theorem Located.prepend {text : List Char} {scan : Scan} (located : scan.Located text)
    {entry : Option Entry} (complete : ∀ found ∈ entry, found.Located text) :
    (Scan.prepend entry scan).Located text := by
  cases entry with
  | none => exact located
  | some entry =>
      refine ⟨?_, located.fault⟩
      intro other member
      rcases List.mem_cons.mp member with rfl | later
      · exact complete other rfl
      · exact located.entries other later

end Scan

theorem located_scan {text : List Char} {level : Level} (located : level.Located text)
    (rest : List Char) :
    (level.scan (Position.start.after text) rest).Located (text ++ rest) := by
  induction rest generalizing text level with
  | nil =>
      rw [List.append_nil]
      simp only [scan]
      cases finished : level.finish with
      | error error => exact Scan.located_fault (pointsInto_of_finish located finished)
      | ok entry =>
          apply (Scan.located_empty text).prepend
          intro complete member
          cases member
          exact located_of_finish finished text
  | cons character rest ih =>
      have places := places_step located character
      have onwards : Position.start.after (text ++ [character]) =
          (Position.start.after text).advance character := by
        rw [Position.after_append]
        rfl
      have whole : text ++ character :: rest = text ++ [character] ++ rest := by simp
      simp only [scan]
      cases stepped : level.step character (Position.start.after text) with
      | error error =>
          rw [stepped] at places
          exact Scan.located_fault (places rest)
      | ok outcome =>
          obtain ⟨next, entry⟩ := outcome
          rw [stepped] at places
          obtain ⟨nextLocated, completed⟩ := places
          have further := ih nextLocated
          rw [onwards, ← whole] at further
          cases entry with
          | none => exact further
          | some entry =>
              apply further.prepend
              intro complete member
              rw [whole]
              exact (completed complete member).append rest

end Level

/-- The error of a level points into the whole text, of which the level is a part. -/
theorem pointsInto_of_parseLevel {limit : DepthLimit} {depth : Nat} (before after : List Char)
    {text : String} {error : ParseError}
    (behindBrace : limit.exceededBy depth = true →
      ∃ front character back, before = front ++ ['{'] ∧ after = character :: back)
    (failed : parseLevel limit depth (Position.start.after before) text = .error error) :
    error.PointsInto (before ++ text.toList ++ after) := by
  rw [parseLevel_eq] at failed
  split at failed
  · next tooDeep =>
      obtain ⟨front, character, back, rfl, rfl⟩ := behindBrace tooDeep
      cases failed
      refine ⟨(front ++ ['{']).length, ?_, ?_, by simp, ?_⟩
      · simp only [List.length_append, List.length_cons]
        omega
      · rw [List.append_assoc, List.take_left]
        rfl
      · simp
  · obtain ⟨entries, faults⟩ :=
      Level.located_scan (Level.located_start before) text.toList
    rcases bind_eq_error_iff.mp failed with unread | ⟨selections, _, faulty⟩
    · obtain ⟨entry, member, unread⟩ := exists_of_mapM_eq_error unread
      cases entry with
      | leaf => cases unread
      | block name arguments origin body =>
          obtain ⟨front, closing, back, whole, rfl⟩ := entries _ member
          rcases bind_eq_error_iff.mp unread with inside | ⟨_, _, returned⟩
          · have points := pointsInto_of_parseLevel (front ++ ['{']) (closing :: (back ++ after))
              (fun _ => ⟨front, closing, back ++ after, rfl, rfl⟩) inside
            rw [whole]
            simpa using points
          · cases returned
    · revert faulty
      cases fault : (Level.start.scan (Position.start.after before) text.toList).fault with
      | none => exact nofun
      | some found =>
          intro thrown
          cases thrown
          exact (faults _ fault).append after
termination_by text.length
decreasing_by exact Level.length_text_lt_of_mem_scan ‹_›

/-- The error of a parse names the position of a character of the text, at whatever depth it
arises, and what stands there shows the error. -/
theorem pointsInto_of_parse {limit : DepthLimit} {text : String} {error : ParseError}
    (failed : parse limit text = .error error) : error.PointsInto text.toList := by
  have points := pointsInto_of_parseLevel [] [] (fun tooDeep => by
    rw [limit.exceededBy_one] at tooDeep
    cases tooDeep) failed
  simpa using points

def faultyText : String := "a, b \x7b # it\x27s \x7b\n  c \x7b d (k: 1, k: 2) \x7b\x7d \x7d \x7d"

theorem pointsInto_faultyText :
    ∃ error, parse .unlimited faultyText = .error error ∧
      error = .duplicateArgument "k" ⟨2, 20⟩ ∧ error.PointsInto faultyText.toList := by
  let body := " # it\x27s \x7b\n  c \x7b d (k: 1, k: 2) \x7b\x7d \x7d "
  let inner := " d (k: 1, k: 2) \x7b\x7d "
  have outer : Level.start.scan .start faultyText.toList =
      ⟨[.leaf "a", .block "b" .empty ⟨1, 7⟩ body], none⟩ := by decide +kernel
  have middle : Level.start.scan ⟨1, 7⟩ body.toList =
      ⟨[.block "c" .empty ⟨2, 6⟩ inner], none⟩ := by decide +kernel
  have deepest : Level.start.scan ⟨2, 6⟩ inner.toList =
      ⟨[], some (.duplicateArgument "k" ⟨2, 20⟩)⟩ := by decide +kernel
  have failed : parse .unlimited faultyText = .error (.duplicateArgument "k" ⟨2, 20⟩) := by
    rw [parse, parseLevel_unlimited, outer]
    simp only [readScan, List.mapM_cons, readEntry]
    rw [parseLevel_unlimited, middle]
    simp only [readScan, List.mapM_cons, readEntry]
    rw [parseLevel_unlimited, deepest]
    rfl
  exact ⟨_, failed, rfl, pointsInto_of_parse failed⟩

end FieldQuery.Query
