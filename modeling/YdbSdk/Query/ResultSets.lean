import Mathlib

namespace YdbSdk.Query.ResultSets

/-! # The result of a query

`TExecuteQueryBuffer` reads the parts of a response one after another.  Each part has rows of one
result set, and the parts of the result sets come in any order. -/

inductive Format where
  | unspecified
  | value
  | arrow
deriving DecidableEq

/-- The fields of a `ResultSet` of a part.  The bytes of the arrow format are in `data`. -/
structure ResultSet (Column Row : Type) where
  format : Format := .unspecified
  columns : List Column := []
  rows : List Row := []
  truncated : Bool := false
  schema : List Char := []
  data : List Char := []

inductive Status where
  | success
  | endOfStream
  | error (code : Nat)
deriving DecidableEq

structure Part (Column Row : Type) where
  status : Status := .success
  issues : List Nat := []
  resultSet : Option (Nat × ResultSet Column Row) := none
  stats : Option Nat := none
  transaction : Option Nat := none
  commitTimestamp : Option Nat := none

/-- What is kept of one index: an entry of `ResultSets_`, `ArrowSchemas_`, `BytesData_` and
`ResultSetSeen_`, which is empty where a vector is too short. -/
structure Slot (Column Row : Type) where
  resultSet : ResultSet Column Row := {}
  arrowSchema : List Char := []
  bytesData : List (List Char) := []
  seen : Bool := false

structure Result (Column Row : Type) where
  status : Status
  issues : List Nat := []
  resultSets : List (Slot Column Row) := []
  stats : Option Nat := none
  transaction : Option Nat := none
  commitTimestamp : Option Nat := none

/-- `promise` has the values that were set; after one nothing is read any more. -/
structure Buffer (Column Row : Type) where
  promise : List (Result Column Row) := []
  issues : List Nat := []
  slots : List (Slot Column Row) := []
  stats : Option Nat := none
  transaction : Option Nat := none
  commitTimestamp : Option Nat := none

variable {Column Row : Type}

def collectYdbValues (set part : ResultSet Column Row) : ResultSet Column Row :=
  { set with
    columns := if set.columns.isEmpty then part.columns else set.columns
    rows := set.rows ++ part.rows }

def collectArrowBytes (slot : Slot Column Row) (part : ResultSet Column Row) : Slot Column Row :=
  { slot with
    resultSet := { slot.resultSet with
      format := part.format
      columns := if slot.resultSet.columns.isEmpty then part.columns else slot.resultSet.columns }
    arrowSchema := if slot.arrowSchema.isEmpty then part.schema else slot.arrowSchema
    bytesData := if part.data.isEmpty then slot.bytesData else slot.bytesData ++ [part.data] }

def Slot.collect (slot : Slot Column Row) (part : ResultSet Column Row) : Slot Column Row :=
  match part.format with
  | .arrow => { collectArrowBytes slot part with seen := true }
  | .unspecified | .value =>
    { slot with
      resultSet := if slot.seen then collectYdbValues slot.resultSet part else part
      seen := true }

def resize (size : Nat) (slots : List (Slot Column Row)) : List (Slot Column Row) :=
  slots ++ .replicate (size - slots.length) { resultSet := {} }

def Buffer.success (buffer : Buffer Column Row) (part : Part Column Row) : Buffer Column Row :=
  { buffer with
    issues := buffer.issues ++ part.issues
    slots := match part.resultSet with
      | none => buffer.slots
      | some (index, set) => (resize (index + 1) buffer.slots).modify index (·.collect set)
    transaction := part.transaction.or buffer.transaction }

def Buffer.read (buffer : Buffer Column Row) (part : Part Column Row) : Buffer Column Row :=
  let buffer := { buffer with
    stats := part.stats.or buffer.stats
    commitTimestamp := part.commitTimestamp.or buffer.commitTimestamp }
  match part.status with
  | .success => buffer.success part
  | .endOfStream =>
    { promise := buffer.promise ++ [⟨.success, buffer.issues, buffer.slots, buffer.stats,
        buffer.transaction, buffer.commitTimestamp⟩] }
  | .error code =>
    { buffer with
      promise := buffer.promise ++ [{ status := .error code, issues := part.issues, stats := buffer.stats }]
      stats := none }

def Buffer.next (buffer : Buffer Column Row) (part : Part Column Row) : Buffer Column Row :=
  if buffer.promise.isEmpty then buffer.read part else buffer

/-! ## What a result set is to have -/

def Buffer.slot (buffer : Buffer Column Row) (index : Nat) : Slot Column Row :=
  buffer.slots.getD index { resultSet := {} }

def setsAt (index : Nat) (parts : List (Part Column Row)) : List (ResultSet Column Row) :=
  parts.filterMap fun part =>
    part.resultSet.bind fun entry => if entry.1 = index then some entry.2 else none

def ResultSet.values (set : ResultSet Column Row) : List Row :=
  if set.format = .arrow then [] else set.rows

def ResultSet.bytes (set : ResultSet Column Row) : List (List Char) :=
  if set.format = .arrow ∧ set.data ≠ [] then [set.data] else []

def firstColumns : List (ResultSet Column Row) → List Column
  | [] => []
  | set :: rest => if set.columns.isEmpty then firstColumns rest else set.columns

/-- The flag comes from the first part, if that has values. -/
def firstTruncated (sets : List (ResultSet Column Row)) : Bool :=
  sets.head?.any fun first => decide (first.format ≠ .arrow) && first.truncated

structure Collected (sets : List (ResultSet Column Row)) (slot : Slot Column Row) : Prop where
  rows : slot.resultSet.rows = sets.flatMap ResultSet.values
  bytes : slot.bytesData = sets.flatMap ResultSet.bytes
  columns : slot.resultSet.columns = firstColumns sets
  truncated : slot.resultSet.truncated = firstTruncated sets
  seen : slot.seen = !sets.isEmpty

theorem firstColumns_append (sets : List (ResultSet Column Row)) (set : ResultSet Column Row) :
    firstColumns (sets ++ [set]) =
      if (firstColumns sets).isEmpty then set.columns else firstColumns sets := by
  induction sets with
  | nil => simp +contextual [firstColumns]
  | cons first sets ih =>
    rw [List.cons_append, firstColumns, firstColumns, ih]
    by_cases empty : first.columns.isEmpty = true
    · rw [if_pos empty, if_pos empty]
    · rw [if_neg empty, if_neg empty, if_neg empty]

theorem collect_values {set : ResultSet Column Row} (values : set.format ≠ .arrow)
    (slot : Slot Column Row) :
    slot.collect set =
      { slot with
        resultSet := if slot.seen then collectYdbValues slot.resultSet set else set
        seen := true } := by
  unfold Slot.collect
  cases format : set.format with
  | arrow => contradiction
  | unspecified => rfl
  | value => rfl

theorem Collected.arrow
    (collected : Collected sets slot) {set : ResultSet Column Row} (format : set.format = .arrow) :
    Collected (sets ++ [set]) (slot.collect set) := by
  obtain ⟨rows, bytes, columns, truncated, seen⟩ := collected
  have step : slot.collect set = { collectArrowBytes slot set with seen := true } := by
    unfold Slot.collect
    rw [format]
  rw [step]
  refine ⟨?_, ?_, ?_, ?_, by simp⟩
  · simpa [collectArrowBytes, ResultSet.values, format] using rows
  · rw [List.flatMap_append, ← bytes]
    by_cases empty : set.data = []
    · simp [collectArrowBytes, ResultSet.bytes, empty]
    · simp [collectArrowBytes, ResultSet.bytes, empty, format]
  · rw [firstColumns_append, ← columns]
    rfl
  · change slot.resultSet.truncated = _
    rw [truncated]
    cases sets with
    | nil => simp [firstTruncated, format]
    | cons first sets => rfl

theorem Collected.values
    (collected : Collected sets slot) {set : ResultSet Column Row} (format : set.format ≠ .arrow) :
    Collected (sets ++ [set]) (slot.collect set) := by
  obtain ⟨rows, bytes, columns, truncated, seen⟩ := collected
  rw [collect_values format]
  cases sets with
  | nil =>
    simp only [seen]
    refine ⟨?_, ?_, ?_, ?_, rfl⟩
    · simp [ResultSet.values, format]
    · simpa [ResultSet.bytes, format] using bytes
    · simp +contextual [firstColumns]
    · simp [firstTruncated, format]
  | cons first sets =>
    simp only [seen]
    refine ⟨?_, ?_, ?_, truncated, rfl⟩
    · simp [collectYdbValues, ResultSet.values, format, rows]
    · simpa [ResultSet.bytes, format] using bytes
    · rw [firstColumns_append, ← columns]
      rfl

theorem slot_collected (sets : List (ResultSet Column Row)) :
    Collected sets (sets.foldl .collect { resultSet := {} }) := by
  induction sets using List.reverseRecOn with
  | nil => exact ⟨rfl, rfl, rfl, rfl, rfl⟩
  | append_singleton sets set ih =>
    rw [List.foldl_append]
    by_cases format : set.format = .arrow
    · exact ih.arrow format
    · exact ih.values format

/-! ## All parts -/

theorem resize_getElem? (size index : Nat) (slots : List (Slot Column Row)) :
    (resize size slots)[index]? =
      if index < size then some (slots[index]?.getD { resultSet := {} }) else slots[index]? := by
  rw [resize, List.getElem?_append]
  by_cases inside : index < slots.length
  · simp [inside]
  · have beyond : slots[index]? = none := List.getElem?_eq_none (Nat.not_lt.mp inside)
    rw [if_neg inside, beyond, List.getElem?_replicate]
    split
    · rw [if_pos (by omega)]
      rfl
    · rw [if_neg (by omega)]

theorem slot_success (buffer : Buffer Column Row) (part : Part Column Row) (index : Nat) :
    (buffer.success part).slot index =
      (setsAt index [part]).foldl .collect (buffer.slot index) := by
  cases found : part.resultSet with
  | none => simp [Buffer.success, Buffer.slot, setsAt, found]
  | some entry =>
    obtain ⟨place, set⟩ := entry
    simp only [Buffer.success, Buffer.slot, setsAt, found, List.getD_eq_getElem?_getD,
      List.getElem?_modify, resize_getElem?]
    by_cases here : place = index
    · simp [here, found]
    · have outside : setsAt index [part] = [] := by simp [setsAt, found, here]
      rw [setsAt] at outside
      simp only [outside, here, if_false, Option.map_eq_map, Option.map_id_fun']
      split
      · rfl
      · rfl

theorem setsAt_cons (index : Nat) (part : Part Column Row) (parts : List (Part Column Row)) :
    setsAt index (part :: parts) = setsAt index [part] ++ setsAt index parts :=
  @List.filterMap_append _ _ [part] parts _

theorem next_of_unset {buffer : Buffer Column Row}
    (unset : buffer.promise = []) : buffer.next part = buffer.read part :=
  if_pos (by rw [unset]; rfl)

theorem foldl_success {parts : List (Part Column Row)} {buffer : Buffer Column Row}
    (successful : ∀ part ∈ parts, part.status = .success) (unset : buffer.promise = []) :
    (parts.foldl .next buffer).promise = [] ∧
      ∀ index, (parts.foldl .next buffer).slot index =
        (setsAt index parts).foldl .collect (buffer.slot index) := by
  induction parts generalizing buffer with
  | nil => exact ⟨unset, fun _ => rfl⟩
  | cons part parts ih =>
    rw [List.forall_mem_cons] at successful
    have step : buffer.next part = .success
        { buffer with
          stats := part.stats.or buffer.stats
          commitTimestamp := part.commitTimestamp.or buffer.commitTimestamp } part := by
      rw [next_of_unset unset, Buffer.read, successful.1]
    obtain ⟨done, slots⟩ := @ih (buffer.next part) successful.2 (by rw [step]; exact unset)
    refine ⟨done, fun index => ?_⟩
    rw [List.foldl_cons, slots index, setsAt_cons, List.foldl_append, step, slot_success]
    rfl

theorem foldl_completed {parts : List (Part Column Row)} {buffer : Buffer Column Row}
    (completed : buffer.promise ≠ []) : parts.foldl .next buffer = buffer := by
  induction parts with
  | nil => rfl
  | cons part parts ih =>
    rw [List.foldl_cons, Buffer.next, if_neg (by simpa using completed)]
    exact ih

theorem any_of_firstTruncated (sets : List (ResultSet Column Row))
    (first : firstTruncated sets = true) : sets.any ResultSet.truncated = true := by
  cases sets with
  | nil => contradiction
  | cons set rest =>
    have truncated : set.truncated = true := by
      simp [firstTruncated] at first
      exact first.2
    simp [truncated]

/-- Whatever the order of the parts, each result set has the rows and the columns of its parts, and
the call is completed once, with the first error if there is one.  The flag is right exactly if a
set with a truncated part has a first part with values that is truncated. -/
theorem results_assembled (parts later : List (Part Column Row)) (last : Part Column Row)
    (successful : ∀ part ∈ parts, part.status = .success) (ended : last.status ≠ .success) :
    (parts.foldl Buffer.next {}).promise = [] ∧
      ∃ result, ((parts ++ last :: later).foldl Buffer.next {}).promise = [result] ∧
        (∀ code, last.status = .error code → result.status = .error code ∧ result.issues = last.issues) ∧
        (last.status = .endOfStream → result.status = .success ∧
          ∀ index, ∀ slot, slot = result.resultSets.getD index { resultSet := {} } →
            slot.resultSet.rows = (setsAt index parts).flatMap ResultSet.values ∧
            slot.bytesData = (setsAt index parts).flatMap ResultSet.bytes ∧
            slot.resultSet.columns = firstColumns (setsAt index parts) ∧
            (slot.resultSet.truncated = (setsAt index parts).any ResultSet.truncated ↔
              ((setsAt index parts).any ResultSet.truncated = true →
                firstTruncated (setsAt index parts) = true))) := by
  obtain ⟨unset, slots⟩ := @foldl_success _ _ parts {} successful rfl
  refine ⟨unset, ?_⟩
  rw [List.foldl_append, List.foldl_cons]
  generalize parts.foldl Buffer.next {} = buffer at unset slots
  rw [next_of_unset unset]
  cases status : last.status with
  | success => contradiction
  | endOfStream =>
    have read : (buffer.read last).promise = [⟨.success, buffer.issues, buffer.slots,
        last.stats.or buffer.stats, buffer.transaction,
        last.commitTimestamp.or buffer.commitTimestamp⟩] := by
      simp [Buffer.read, status, unset]
    rw [foldl_completed (by rw [read]; exact List.cons_ne_nil _ _)]
    refine ⟨_, read, nofun, fun _ => ⟨rfl, fun index slot same => ?_⟩⟩
    have collected := slot_collected (setsAt index parts)
    obtain rfl : slot = (setsAt index parts).foldl .collect { resultSet := {} } :=
      same.trans (slots index)
    refine ⟨collected.rows, collected.bytes, collected.columns, ?_⟩
    rw [collected.truncated]
    have above := any_of_firstTruncated (setsAt index parts)
    cases first : firstTruncated (setsAt index parts) with
    | true => simp [above first]
    | false => simp
  | error code =>
    have read : (buffer.read last).promise =
        [⟨.error code, last.issues, [], last.stats.or buffer.stats, none, none⟩] := by
      simp [Buffer.read, status, unset]
    rw [foldl_completed (by rw [read]; exact List.cons_ne_nil _ _)]
    exact ⟨_, read, fun _ same => ⟨same, rfl⟩, nofun⟩

def interleaved : List (Part Nat Nat) :=
  [{ resultSet := some (1, { columns := [7], rows := [1], truncated := true }) },
    { resultSet := some (0, { rows := [2] }) }, { resultSet := some (1, { rows := [3] }) }]

theorem results_assembled_interleaved :
    ∃ result,
      ((interleaved ++ [{ status := .endOfStream : Part Nat Nat }]).foldl Buffer.next {}).promise =
        [result] ∧
      (result.resultSets.getD 1 { resultSet := {} }).resultSet.rows = [1, 3] := by
  obtain ⟨_, result, promise, _, done⟩ := results_assembled interleaved [] { status := .endOfStream }
    (by decide) (by decide)
  exact ⟨result, promise, ((done rfl).2 1 _ rfl).1⟩

/-- The flag of a later part is lost. -/
theorem truncated_part_unmarked :
    ∃ result : Result Nat Nat,
      ([{ resultSet := some (0, { rows := [1] }) },
        { resultSet := some (0, { rows := [2], truncated := true }) },
        { status := .endOfStream }].foldl Buffer.next {}).promise = [result] ∧
      (result.resultSets.getD 0 { resultSet := {} }).resultSet.truncated = false :=
  ⟨_, rfl, rfl⟩

end YdbSdk.Query.ResultSets
