import Btfind.Observability.ReadBatches

/-!
# Reading again

The clock only takes the place of a time that is no number, so lines that are read again come to the
same batches up to the times of their records.
-/

namespace Btfind

/-- The record without the time at which it was read. -/
def JournalRecord.untimed (r : JournalRecord) : JournalRecord := { r with timestamp := 0 }

def JournalBatch.untimed (b : JournalBatch) : JournalBatch :=
  { b with records := b.records.map JournalRecord.untimed }

def SelectedLine.untimed (x : SelectedLine) : SelectedLine :=
  { x with record := x.record.untimed }

namespace Journal

section Reading

variable {py : Python} {uid : Nat} {limits : JournalLimits} {cursor : Option String}
  {lines : List JournalLine}

theorem parseTimestamp_cases (py : Python) (value : Option Json) :
    (∀ now, parseTimestamp py value now = .ok now) ∨
      ∃ r, ∀ now, parseTimestamp py value now = r := by
  cases hint : py.parseInt (decodeField py value) with
  | ok microseconds => exact Or.inr ⟨_, fun now => by rw [parseTimestamp, hint]⟩
  | error e =>
    by_cases he : e = .typeError ∨ e.isValueError
    · exact Or.inl fun now => by simp only [parseTimestamp, hint, if_pos he]
    · exact Or.inr ⟨_, fun now => by simp only [parseTimestamp, hint, if_neg he]; rfl⟩

theorem normalise_untimed (raw : JsonObject) (now now' : Int) :
    (normalise py uid raw now).map (Option.map JournalRecord.untimed) =
      (normalise py uid raw now').map (Option.map JournalRecord.untimed) := by
  rw [normalise, normalise]
  split
  · rfl
  split
  · rfl
  obtain hnow | ⟨r, hr⟩ := parseTimestamp_cases py (raw.lookup "__REALTIME_TIMESTAMP")
  · rw [hnow, hnow]
    cases parseContent py (decodeField py (raw.lookup "MESSAGE")) <;> rfl
  · rw [hr, hr]

/-- What is seen of a line, without the time at which it is read. -/
def untimedSeen : Option (String × Option JournalRecord) → Option (String × Option JournalRecord) :=
  Option.map (Prod.map id (Option.map JournalRecord.untimed))

theorem map_untimedSeen (rawCursor : String) (x : Except PyError (Option JournalRecord)) :
    (x.map fun record => some (rawCursor, record)).map untimedSeen =
      (x.map (Option.map JournalRecord.untimed)).map fun record => some (rawCursor, record) := by
  cases x <;> rfl

theorem readLine_untimed {line line' : JournalLine} (h : line.text = line'.text) :
    (readLine py uid line).map untimedSeen = (readLine py uid line').map untimedSeen := by
  rw [readLine, readLine, h]
  split
  · rfl
  split
  · rfl
  · rfl
  · dsimp only
    split
    · rfl
    · rw [map_untimedSeen, map_untimedSeen, normalise_untimed]
  · rfl

/-- Two readings of a line differ in the time only. -/
theorem readLine_cases (py : Python) (uid : Nat) {line line' : JournalLine}
    (h : line.text = line'.text) :
    (∃ e, readLine py uid line = .error e ∧ readLine py uid line' = .error e) ∨
    (readLine py uid line = .ok none ∧ readLine py uid line' = .ok none) ∨
    (∃ c, readLine py uid line = .ok (some (c, none)) ∧
      readLine py uid line' = .ok (some (c, none))) ∨
    ∃ c r r', readLine py uid line = .ok (some (c, some r)) ∧
      readLine py uid line' = .ok (some (c, some r')) ∧ r.untimed = r'.untimed := by
  have hsame : (readLine py uid line).map untimedSeen = (readLine py uid line').map untimedSeen :=
    readLine_untimed h
  cases hl : readLine py uid line with
  | error e =>
    cases hr : readLine py uid line' with
    | error e' =>
      rw [hl, hr] at hsame
      exact Or.inl ⟨e, rfl, congrArg Except.error (Except.error.inj hsame).symm⟩
    | ok seen' =>
      rw [hl, hr] at hsame
      cases hsame
  | ok seen =>
    cases hr : readLine py uid line' with
    | error e' =>
      rw [hl, hr] at hsame
      cases hsame
    | ok seen' =>
      rw [hl, hr] at hsame
      have hseen : untimedSeen seen = untimedSeen seen' := Except.ok.inj hsame
      right
      obtain _ | ⟨c, _ | r⟩ := seen <;> obtain _ | ⟨c', _ | r'⟩ := seen' <;> try cases hseen
      · exact Or.inl ⟨rfl, rfl⟩
      · exact Or.inr (Or.inl ⟨c, rfl, rfl⟩)
      · obtain ⟨rfl, hrecord⟩ := Prod.mk.inj (Option.some.inj hseen)
        exact Or.inr (Or.inr ⟨_, r, r', rfl, rfl, Option.some.inj hrecord⟩)

end Reading

end Journal

end Btfind
