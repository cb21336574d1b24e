import FieldQuery.Proofs.Query.ArgumentLanguage
import FieldQuery.Proofs.Query.CanonicalReading
import FieldQuery.Proofs.Query.ParseDepthFilter
import FieldQuery.Proofs.Query.PlacelessReading

/-!
# Queries as blocks

Without a limit, a text that is read as a whole query is read alike at every depth and in every
place. In braces it is still the same query, and behind the head of a field, a name that may have
an argument list, it becomes the block of that field.
-/

set_option autoImplicit false

namespace FieldQuery.Query

open Fallible OnePass

theorem ArgumentList.ClosesBehind.elsewhere {openedAt here : Position} {text : List Char}
    {arguments : Arguments}
    (closes : (ArgumentList.opened openedAt).ClosesBehind here text arguments)
    (otherOpening there : Position) :
    (ArgumentList.opened otherOpening).ClosesBehind there text arguments := by
  -- The grammar of what closes a list knows no places.
  obtain ⟨noNewline, piece, texts, content, contents, rfl, continues, slots, adds⟩ :=
    grammar_of_closesBehind closes
  exact closesBehind_of_grammar otherOpening (Slot.continues_empty_iff.mp continues) slots
    noNewline adds there

namespace OnePass

namespace Reader

theorem openBlock_unlimited (outermost : Nat) (frames : List Frame) (selections : List Selection)
    (name : String) (arguments : Arguments) :
    openBlock .unlimited outermost frames selections name arguments =
      some ⟨.branch name arguments selections :: frames, [], .between .nothing⟩ := by
  rw [openBlock, if_neg (by simp)]

theorem step_unlimited_eq (outermost other : Nat) (reader : Reader) (character : Char)
    (here : Position) :
    reader.step .unlimited outermost character here =
      reader.step .unlimited other character here := by
  by_cases opens : reader.Opens character
  · obtain rfl := opens.1
    obtain ⟨name, arguments, stepped⟩ := step_of_opens opens
    rw [stepped, stepped, openBlock_unlimited, openBlock_unlimited]
  · exact step_eq_step_of_not_opens opens .unlimited .unlimited outermost other here

theorem run_unlimited_eq (outermost other : Nat) (reader : Reader) (here : Position)
    (characters : List Char) :
    reader.run .unlimited outermost here characters =
      reader.run .unlimited other here characters := by
  induction characters generalizing reader here with
  | nil => rfl
  | cons character rest ih =>
      rw [run_cons, run_cons, step_unlimited_eq outermost other]
      simp only [ih]

end Reader

/-- Without a limit, a text is read alike at every depth and in every place. -/
theorem readLevel_unlimited (depth : Nat) (origin : Position) (text : String) :
    readLevel .unlimited depth origin text = read .unlimited text := by
  rw [readLevel, Reader.run_unlimited_eq depth 1, read, readLevel]
  exact Reader.run_finish_eq rfl origin .start text.toList

/-- The head of a field, behind which a brace opens the block of the field. -/
def IsHead (head name : String) (arguments : Arguments) : Prop :=
  Reader.start.run .unlimited 1 .start (head.toList ++ ['{']) =
    some (Reader.start.under [.branch name arguments []])

theorem isHead_name {name : String} (isName : IsName name) : IsHead name name .empty := by
  rw [IsHead, Reader.run_append, Reader.start,
    Reader.run_name .unlimited 1 [] [] isName, Option.bind_some]
  rfl

theorem isHead_call {name written : String} {arguments : Arguments} {openedAt here : Position}
    (isName : IsName name)
    (closes : (ArgumentList.opened openedAt).ClosesBehind here written.toList arguments) :
    IsHead (name ++ "(" ++ written ++ ")") name arguments := by
  let opening := Position.start.after name.toList
  obtain ⟨last, fed, closed⟩ := closes.elsewhere opening (opening.advance '(')
  have characters : (name ++ "(" ++ written ++ ")").toList ++ ['{'] =
      name.toList ++ '(' :: (written.toList ++ [')', '{']) := by
    simp
  have opened : Reader.step .unlimited 1 ⟨[], [], .between (.named name .start false)⟩ '(' opening =
      some ⟨[], [], .arguments name .start (.opened opening)⟩ := rfl
  have ended : Reader.step .unlimited 1 ⟨[], [], .arguments name .start last⟩ ')'
      ((opening.advance '(').after written.toList) =
        some ⟨[], [], .between (.called name .start arguments)⟩ := by
    simp only [Reader.step, closed]
  rw [IsHead, characters, Reader.run_append, Reader.start,
    Reader.run_name .unlimited 1 [] [] isName, Option.bind_some, Reader.run_cons_of_step opened,
    Reader.run_append, Reader.run_feed .unlimited 1 [] [] fed, Option.bind_some,
    Reader.run_cons_of_step ended]
  rfl

theorem read_block {head name text : String} {arguments : Arguments} {selections : List Selection}
    (isHead : IsHead head name arguments) (accepted : read .unlimited text = some selections) :
    read .unlimited (head ++ braced text) = some [.branch name arguments selections] := by
  have characters : (head ++ braced text).toList =
      (head.toList ++ ['{']) ++ (text.toList ++ ['\n', '}']) := by
    simp [braced]
  -- Inside the block the text lies one level deeper and in another place.
  have inside := (readLevel_unlimited 2 (Position.start.after (head.toList ++ ['{'])) text).trans
    accepted
  rw [read, readLevel, characters, Reader.run_enclosed isHead inside]
  rfl

end OnePass

/-- A text put into blocks and nameless braces, again and again, and what is asked by it then. -/
inductive Enclosed (text : String) (selections : List Selection) :
    String → List Selection → Prop where
  | bare : Enclosed text selections text selections
  | braces {inner : String} {read : List Selection} (inside : Enclosed text selections inner read) :
      Enclosed text selections (braced inner) read
  | block {inner name : String} {read : List Selection} (isName : IsName name)
      (inside : Enclosed text selections inner read) :
      Enclosed text selections (name ++ braced inner) [.branch name .empty read]
  | call {inner name written : String} {arguments : Arguments} {read : List Selection}
      {openedAt here : Position} (isName : IsName name)
      (closes : (ArgumentList.opened openedAt).ClosesBehind here written.toList arguments)
      (inside : Enclosed text selections inner read) :
      Enclosed text selections (name ++ "(" ++ written ++ ")" ++ braced inner)
        [.branch name arguments read]

theorem parseLevel_unlimited_eq_ok_iff {text : String} {selections : List Selection} (depth : Nat)
    (origin : Position) :
    parseLevel .unlimited depth origin text = .ok selections ↔
      parse .unlimited text = .ok selections := by
  have alike := readsAlike .unlimited depth origin text
  rw [ReadsAlike, if_neg (by simp), readLevel_unlimited, ← toOption_parse] at alike
  rw [← toOption_eq_some_iff, alike, toOption_eq_some_iff]

theorem parse_of_isHead {head name text : String} {arguments : Arguments}
    {selections : List Selection} (isHead : IsHead head name arguments)
    (accepted : parse .unlimited text = .ok selections) :
    parse .unlimited (head ++ braced text) = .ok [.branch name arguments selections] := by
  rw [← toOption_eq_some_iff, toOption_parse] at accepted ⊢
  exact read_block isHead accepted

theorem Enclosed.parse_eq_ok {text whole : String} {selections read : List Selection}
    (enclosed : Enclosed text selections whole read)
    (accepted : parse .unlimited text = .ok selections) : parse .unlimited whole = .ok read := by
  induction enclosed with
  | bare => exact accepted
  | braces inside ih => exact parseLevel_braced ih
  | block isName inside ih => exact parse_of_isHead (isHead_name isName) ih
  | call isName closes inside ih => exact parse_of_isHead (isHead_call isName closes) ih

/-- Without a limit, what is read as a whole query means the same in braces round it, as the block
of a field with or without arguments, at any depth and place of a larger text, and however often it
is enclosed again. -/
theorem parse_enclosed {text : String} {selections : List Selection}
    (accepted : parse .unlimited text = .ok selections) :
    parse .unlimited (braced text) = .ok selections ∧
    (∀ name, IsName name →
      parse .unlimited (name ++ braced text) = .ok [.branch name .empty selections]) ∧
    (∀ name written arguments openedAt here, IsName name →
      (ArgumentList.opened openedAt).ClosesBehind here written.toList arguments →
      parse .unlimited (name ++ "(" ++ written ++ ")" ++ braced text) =
        .ok [.branch name arguments selections]) ∧
    (∀ depth origin, parseLevel .unlimited depth origin text = .ok selections) ∧
    ∀ whole read, Enclosed text selections whole read → parse .unlimited whole = .ok read := by
  refine ⟨parseLevel_braced accepted, ?_, ?_, ?_, ?_⟩
  · intro name isName
    exact parse_of_isHead (isHead_name isName) accepted
  · intro name written arguments openedAt here isName closes
    exact parse_of_isHead (isHead_call isName closes) accepted
  · intro depth origin
    exact (parseLevel_unlimited_eq_ok_iff depth origin).mpr accepted
  · intro whole read enclosed
    exact enclosed.parse_eq_ok accepted

def layeredText : String :=
  "a (k: \"\x7d\") \x7b b # \x7d\n \x7d \x7b c, d \x7b \x7b\x7d \x7d \x7d # \x7b"

theorem parse_layeredText :
    let selections : List Selection :=
      [.branch "a" (Dict.empty.insert "k" (.text "\x7d")) [.leaf "b"], .leaf "c",
        .branch "d" .empty []]
    let arguments : Arguments := Dict.empty.insert "n" (.integer 3)
    parse .unlimited layeredText = .ok selections ∧
      parse .unlimited (braced layeredText) = .ok selections ∧ IsName "e" ∧
      (ArgumentList.opened .start).ClosesBehind .start "n: 3".toList arguments ∧
      parse .unlimited ("e" ++ "(" ++ "n: 3" ++ ")" ++ braced layeredText) =
        .ok [.branch "e" arguments selections] ∧
      parse .unlimited ("e" ++ braced (braced ("e" ++ braced layeredText))) =
        .ok [.branch "e" .empty [.branch "e" .empty selections]] := by
  intro selections arguments
  have accepted : parse .unlimited layeredText = .ok selections := by
    rw [← toOption_eq_some_iff, toOption_parse]
    decide +kernel
  have isName : IsName "e" := by
    refine ⟨by decide, fun character member => ?_⟩
    obtain rfl : character = 'e' := by simpa using member
    decide
  have closes : (ArgumentList.opened .start).ClosesBehind .start "n: 3".toList arguments :=
    ⟨⟨.start, .empty, .bare "n" "3" false⟩, by decide +kernel, by rfl⟩
  obtain ⟨inBraces, _, called, _, again⟩ := parse_enclosed accepted
  exact ⟨accepted, inBraces, isName, closes, called _ _ _ _ _ isName closes,
    again _ _ (.block isName (.braces (.block isName .bare)))⟩

end FieldQuery.Query
