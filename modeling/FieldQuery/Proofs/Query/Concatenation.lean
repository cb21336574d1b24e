import FieldQuery.Proofs.Query.OnePassAgreement
import FieldQuery.Proofs.Query.Relocation

/-!
# Queries one behind the other

A line feed and a comma behind a text that is read end all that it may leave pending: the line feed
ends a comment, the comma a name. A text behind them is read as it is read alone, only in another
place, and its selections follow those of the first.
-/

set_option autoImplicit false

namespace FieldQuery.Query

namespace Level

def Scan.followedBy (first second : Scan) : Scan := ⟨first.entries ++ second.entries, second.fault⟩

theorem Scan.prepend_followedBy (entry : Option Entry) (first second : Scan) :
    (Scan.prepend entry first).followedBy second =
      Scan.prepend entry (first.followedBy second) := by
  cases entry <;> rfl

/-- Where a text may end, a line feed and a comma lead back to the start of a level, and complete
the entry that the end of the text completes. -/
theorem step_separator {level : Level} {entry : Option Entry} (finished : level.finish = .ok entry)
    (here there : Position) :
    ∃ next, level.step '\n' here = .ok (next, none) ∧ next.step ',' there = .ok (start, entry) := by
  have complete (openSets : List Position) (pending : Pending)
      (ended : finish ⟨openSets, .between pending⟩ = .ok entry) :
      openSets = [] ∧ pending.flush = .ok entry := by
    obtain ⟨flushed, done, returned⟩ := Fallible.bind_eq_ok_iff.mp ended
    cases openSets with
    | nil =>
        cases returned
        exact ⟨rfl, done⟩
    | cons => cases returned
  have behind (pending : Pending) (flushed : pending.flush = .ok entry) :
      step ⟨[], .between pending⟩ ',' there = .ok (start, entry) := by
    have stepped : step ⟨[], .between pending⟩ ',' there =
        (do let entry ← pending.flush; return (start, entry)) := rfl
    rw [stepped, flushed]
    rfl
  obtain ⟨openSets, focus⟩ := level
  cases focus with
  | between pending =>
      obtain ⟨rfl, flushed⟩ := complete openSets pending finished
      have flushedEnded : pending.ended.flush = .ok entry := by
        rw [← flushed]
        cases pending <;> rfl
      exact ⟨_, rfl, behind pending.ended flushedEnded⟩
  | comment pending =>
      obtain ⟨rfl, flushed⟩ := complete openSets pending finished
      exact ⟨_, rfl, behind pending flushed⟩
  | arguments => cases finished
  | block => cases finished

theorem scan_separated (level : Level) (here : Position) (front back : List Char)
    (faultless : (level.scan here front).fault = none) :
    level.scan here (front ++ '\n' :: ',' :: back) =
      (level.scan here front).followedBy
        (start.scan (here.after (front ++ ['\n', ','])) back) := by
  induction front generalizing level here with
  | nil =>
      simp only [scan] at faultless ⊢
      cases finished : level.finish with
      | error fault =>
          rw [finished] at faultless
          cases faultless
      | ok entry =>
          obtain ⟨next, first, second⟩ :=
            step_separator finished here (here.advance '\n')
          simp only [List.nil_append, scan, first, second]
          cases entry <;> rfl
  | cons character rest ih =>
      simp only [List.cons_append, scan] at faultless ⊢
      cases stepped : level.step character here with
      | error fault =>
          rw [stepped] at faultless
          cases faultless
      | ok outcome =>
          obtain ⟨next, entry⟩ := outcome
          rw [stepped] at faultless
          cases entry with
          | none => exact ih next _ faultless
          | some entry =>
              have continued := ih next (here.advance character) faultless
              simp only [continued]
              exact (Scan.prepend_followedBy (some entry) _ _).symm

end Level

theorem readScan_followedBy {limit : DepthLimit} {depth : Nat} {first : Level.Scan}
    {selections : List Selection} (read : readScan limit depth first = .ok selections)
    (second : Level.Scan) :
    readScan limit depth (first.followedBy second) = do
      let others ← readScan limit depth second
      return selections ++ others := by
  have entries := (readScan_eq_ok_iff.mp read).1
  simp only [readScan, Level.Scan.followedBy, List.mapM_append, entries]
  cases second.entries.mapM (readEntry limit depth) with
  | error => rfl
  | ok others => cases second.fault <;> rfl

theorem toList_separated (front back : String) :
    (front ++ "\n," ++ back).toList = front.toList ++ '\n' :: ',' :: back.toList := by
  simp

theorem parseLevel_separated {limit : DepthLimit} {depth : Nat} {origin : Position}
    {front : String} {selections : List Selection}
    (accepted : parseLevel limit depth origin front = .ok selections) (back : String) :
    parseLevel limit depth origin (front ++ "\n," ++ back) = do
      let others ← parseLevel limit depth (origin.after (front ++ "\n,").toList) back
      return selections ++ others := by
  rw [parseLevel_eq] at accepted
  rw [parseLevel_eq, parseLevel_eq]
  split at accepted
  · cases accepted
  · next allowed =>
      have separator : (front ++ "\n,").toList = front.toList ++ ['\n', ','] := by simp
      rw [if_neg allowed, if_neg allowed, toList_separated,
        Level.scan_separated _ _ _ _ (readScan_eq_ok_iff.mp accepted).2,
        readScan_followedBy accepted, separator]

/-- A text that is read leaves nothing behind in what follows it after a line feed and a comma. The
rest is scanned as from the start, its selections follow those of the text, and its error is the
same with every position moved to where it stands behind the text. -/
theorem parse_concatenated {limit : DepthLimit} {front : String} {selections : List Selection}
    (accepted : parse limit front = .ok selections) (back : String) :
    let there := Position.start.after (front ++ "\n,").toList
    (∀ characters, there.behind (Position.start.after characters) =
      Position.start.after ((front ++ "\n,").toList ++ characters)) ∧
    (∀ others, parse limit back = .ok others →
      parse limit (front ++ "\n," ++ back) = .ok (selections ++ others)) ∧
    (∀ error, parse limit back = .error error →
      parse limit (front ++ "\n," ++ back) = .error (error.relocate there.behind)) ∧
    ∃ entries, ∀ rest, Level.start.scan .start ((front ++ "\n,").toList ++ rest) =
      ⟨entries ++ (Level.start.scan there rest).entries, (Level.start.scan there rest).fault⟩ := by
  intro there
  have separated := parseLevel_separated accepted back
  rw [parseLevel_at limit 1 (Position.start.after _)] at separated
  refine ⟨?_, ?_, ?_, (Level.start.scan .start front.toList).entries, ?_⟩
  · intro characters
    rw [Position.after_append]
    exact there.moves_behind characters
  · intro others read
    rw [parse] at read
    rw [parse, separated, read]
    rfl
  · intro error failed
    rw [parse] at failed
    rw [parse, separated, failed]
    rfl
  · intro rest
    have faultless : (Level.start.scan .start front.toList).fault = none := by
      rw [parse, parseLevel_of_allowed limit.exceededBy_one] at accepted
      exact (readScan_eq_ok_iff.mp accepted).2
    have scanned := Level.scan_separated _ _ _ rest faultless
    simpa [there, Level.Scan.followedBy] using scanned

def commentedText : String := "films (first: 2) \x7b title \x7d rating # \x7d \x7b"

def repeatingText : String := "a \x7b\n b (k: 1, k: 2) \x7b\x7d \x7d"

theorem parse_commentedText :
    let films : List Selection :=
      [.branch "films" (Dict.empty.insert "first" (.integer 2)) [.leaf "title"], .leaf "rating"]
    parse ⟨2⟩ commentedText = .ok films ∧
      parse ⟨2⟩ (commentedText ++ "\n," ++ "\x7b b \x7d") = .ok (films ++ [.leaf "b"]) ∧
      parse ⟨2⟩ repeatingText = .error (.duplicateArgument "k" ⟨2, 15⟩) ∧
      parse ⟨2⟩ (commentedText ++ "\n," ++ repeatingText) =
        .error (.duplicateArgument "k" ⟨3, 15⟩) := by
  intro films
  have accepted : parse ⟨2⟩ commentedText = .ok films := by
    rw [← Fallible.toOption_eq_some_iff, toOption_parse]
    decide +kernel
  have behind : parse ⟨2⟩ "\x7b b \x7d" = .ok [.leaf "b"] := by
    rw [← Fallible.toOption_eq_some_iff, toOption_parse]
    decide +kernel
  have outer : Level.start.scan .start repeatingText.toList =
      ⟨[.block "a" .empty ⟨1, 4⟩ "\n b (k: 1, k: 2) \x7b\x7d "], none⟩ := by decide +kernel
  have inner : Level.start.scan ⟨1, 4⟩ "\n b (k: 1, k: 2) \x7b\x7d ".toList =
      ⟨[], some (.duplicateArgument "k" ⟨2, 15⟩)⟩ := by decide +kernel
  have failed : parse ⟨2⟩ repeatingText = .error (.duplicateArgument "k" ⟨2, 15⟩) := by
    rw [parse, parseLevel_of_allowed rfl, outer]
    simp only [readScan, List.mapM_cons, readEntry]
    rw [parseLevel_of_allowed rfl, inner]
    rfl
  obtain ⟨_, joins, _, _⟩ := parse_concatenated accepted "\x7b b \x7d"
  obtain ⟨_, _, fails, _⟩ := parse_concatenated accepted repeatingText
  exact ⟨accepted, joins _ behind, failed, fails _ failed⟩

end FieldQuery.Query
