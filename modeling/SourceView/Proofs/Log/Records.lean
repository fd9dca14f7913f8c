import SourceView.History.Log

/-! The records of a log, and the history that they tell of.
The line that a record was read from counts only for what an error says.
-/

namespace SourceView.Log

/-- A scan has come to the end of a log and has found these records. -/
structure Scan.Found (scan : Scan) (records : List LogRecord) : Prop where
  records : scan.records.map Prod.snd = records
  complete : scan.failure = none

/-- An empty log has no records. -/
theorem Scan.found_empty : Found {} [] :=
  ⟨rfl, rfl⟩

/-- A line that counts adds its record to those of the lines behind it. -/
theorem Scan.Found.cons {scan : Scan} {records : List LogRecord} (found : scan.Found records)
    (number : Nat) (record : LogRecord)
    : (scan.cons number record).Found (record :: records) :=
  ⟨congrArg (record :: ·) found.records, found.complete⟩

namespace Reading

variable {reading next : Reading}

/-- Take in records, wherever they stood. -/
def follow? (reading : Reading) : List LogRecord → Option Reading
  | [] => some reading
  | record :: rest => (reading.add 0 record).toOption.bind fun next => next.follow? rest

/-- Whether a record can be taken in does not depend on its line, nor does what comes of it. -/
theorem toOption_add (reading : Reading) (number : Nat) (record : LogRecord)
    : (reading.add number record).toOption = (reading.add 0 record).toOption := by
  cases record with
  | commit | oldPath => rfl
  | newPath path =>
      simp only [add]
      split <;> rfl
  | hunk hunk =>
      simp only [add]
      split <;> rfl

/-- Taking in records one by one leads where following them does, by induction on the records. -/
theorem addAll_eq_ok_iff {records : List (Nat × LogRecord)}
    : reading.addAll records = .ok next ↔ reading.follow? (records.map Prod.snd) = some next := by
  induction records generalizing reading with
  | nil => simp [addAll, follow?]
  | cons head rest ih =>
      obtain ⟨number, record⟩ := head
      simp only [addAll, List.map_cons, follow?, ← toOption_add reading number record]
      cases reading.add number record with
      | error cause => simp [Except.toOption]
      | ok taken => exact ih

/-- Records are followed one behind the other, by induction on the first ones. -/
theorem follow?_append (reading : Reading) (first rest : List LogRecord)
    : reading.follow? (first ++ rest)
      = (reading.follow? first).bind fun next => next.follow? rest := by
  induction first generalizing reading with
  | nil => rfl
  | cons record first ih => simp [follow?, ih, Option.bind_assoc]

end Reading

/-- A log has a history exactly if it can be read to its end and its records can be taken in. -/
theorem ofLog_eq_ok_iff {log : List UInt8} {history : History}
    : History.ofLog log = .ok history
      ↔ ∃ records reading,
          (scan log).Found records
          ∧ ({} : Reading).follow? records = some reading
          ∧ reading.history = history := by
  have taken : ∀ reading, ({} : Reading).addAll (scan log).records = .ok reading
      ↔ ({} : Reading).follow? ((scan log).records.map Prod.snd) = some reading :=
    fun _ => Reading.addAll_eq_ok_iff
  simp only [History.ofLog]
  cases read : ({} : Reading).addAll (scan log).records with
  | error cause =>
      refine ⟨nofun, ?_⟩
      rintro ⟨records, reading, found, followed, -⟩
      rw [← found.records, ← taken, read] at followed
      cases followed
  | ok reading =>
      have followed := (taken reading).mp read
      cases stopped : (scan log).failure with
      | some cause =>
          refine ⟨nofun, ?_⟩
          rintro ⟨_, _, found, -⟩
          cases stopped.symm.trans found.complete
      | none =>
          constructor
          · rintro same
            exact ⟨_, reading, ⟨rfl, stopped⟩, followed, Except.ok.inj same⟩
          · rintro ⟨_, other, ⟨rfl, -⟩, same, rfl⟩
            rw [Option.some.inj (followed.symm.trans same)]

end SourceView.Log
