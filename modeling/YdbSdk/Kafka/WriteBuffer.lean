import Mathlib

namespace YdbSdk.Kafka

open List

/-! # The buffer that requests are written to -/

/-- `TBuffer`: `data` are its first `Pos_` bytes, `capacity` is `Len_`. -/
structure Chunk where
  capacity : Nat := 0
  data : List UInt8 := []

def fastClp2 (size : Nat) : Nat := if size ≤ 2 ^ 63 then size.nextPowerOfTwo else 0

namespace Chunk

def avail (buffer : Chunk) : Nat := buffer.capacity - buffer.data.length

def reserve (buffer : Chunk) (size : Nat) : Chunk :=
  if buffer.capacity < size then { buffer with capacity := max (fastClp2 size) size } else buffer

def append (buffer : Chunk) (src : List UInt8) : Chunk :=
  let buffer := if buffer.avail < src.length then buffer.reserve (buffer.data.length + src.length) else buffer
  { buffer with data := buffer.data ++ src }

def ofSize (chunkSize : Nat) : Chunk := reserve {} chunkSize

end Chunk

/-- The front of the deque, and what is behind it. -/
def getOrCreateFrontBuffer (chunkSize : Nat) : List Chunk → Chunk × List Chunk
  | [] => (.ofSize chunkSize, [])
  | buffer :: buffers => (buffer, buffers)

/-- The loop of `write`, cut off after `fuel` turns. -/
def write (chunkSize : Nat) : Nat → List Chunk → List UInt8 → Option (List Chunk)
  | 0, _, _ => none
  | fuel + 1, buffers, src =>
    let (buffer, behind) := getOrCreateFrontBuffer chunkSize buffers
    if buffer.avail < src.length then
      let left := src.drop buffer.avail
      let buffers := .ofSize chunkSize :: buffer.append (src.take buffer.avail) :: behind
      if left.length > 0 then write chunkSize fuel buffers left else some buffers
    else some (buffer.append src :: behind)

def asString (buffers : List Chunk) : List UInt8 := buffers.reverse.flatMap (·.data)

/-- The chunk was never enlarged, and holds no more than it has room for. -/
def Chunk.Fits (chunkSize : Nat) (buffer : Chunk) : Prop :=
  buffer.capacity = (ofSize chunkSize).capacity ∧ buffer.data.length ≤ buffer.capacity

theorem Chunk.ofSize_data : (ofSize chunkSize).data = [] := by
  unfold ofSize reserve
  split <;> rfl

theorem Chunk.ofSize_fits : (ofSize chunkSize).Fits chunkSize := by
  exact ⟨rfl, by rw [ofSize_data]; exact Nat.zero_le _⟩

theorem Chunk.ofSize_avail (positive : 0 < chunkSize) : 0 < (ofSize chunkSize).avail := by
  rw [ofSize, reserve, if_pos positive]
  exact Nat.lt_of_lt_of_le positive (Nat.le_max_right _ _)

theorem Chunk.Fits.append {buffer : Chunk} (fits : buffer.Fits chunkSize) (short : src.length ≤ buffer.avail) :
    (buffer.append src).Fits chunkSize ∧ (buffer.append src).data = buffer.data ++ src := by
  obtain ⟨whole, held⟩ := fits
  rw [Chunk.append, if_neg (Nat.not_lt.mpr short)]
  unfold avail at short
  refine ⟨⟨whole, ?_⟩, rfl⟩
  show (buffer.data ++ src).length ≤ buffer.capacity
  rw [length_append]
  omega

theorem asString_cons : asString (buffer :: buffers) = asString buffers ++ buffer.data := by
  simp [asString]

theorem getOrCreateFrontBuffer_spec (fits : ∀ buffer ∈ buffers, buffer.Fits chunkSize)
    (front : getOrCreateFrontBuffer chunkSize buffers = (buffer, behind)) :
    buffer.Fits chunkSize ∧ (∀ buffer ∈ behind, buffer.Fits chunkSize) ∧
      asString buffers = asString behind ++ buffer.data := by
  cases buffers with
  | nil =>
    cases front
    exact ⟨Chunk.ofSize_fits, nofun, by rw [Chunk.ofSize_data]; rfl⟩
  | cons first buffers =>
    cases front
    obtain ⟨here, rest⟩ := forall_mem_cons.mp fits
    exact ⟨here, rest, asString_cons⟩

/-- One turn more is taken when the front chunk is full. -/
theorem write_spec (positive : 0 < chunkSize) (fits : ∀ buffer ∈ buffers, buffer.Fits chunkSize)
    (enough : src.length < fuel)
    (full : (getOrCreateFrontBuffer chunkSize buffers).1.avail = 0 → src.length + 1 < fuel) :
    ∃ after, write chunkSize fuel buffers src = some after ∧ (∀ buffer ∈ after, buffer.Fits chunkSize) ∧
      asString after = asString buffers ++ src := by
  induction fuel generalizing buffers src with
  | zero => contradiction
  | succ fuel ih =>
    rcases front : getOrCreateFrontBuffer chunkSize buffers with ⟨buffer, behind⟩
    obtain ⟨here, rest, same⟩ := getOrCreateFrontBuffer_spec fits front
    simp only [front] at full
    simp only [write, front]
    split
    case isTrue long =>
      obtain ⟨filled, data⟩ := here.append (src.length_take_le buffer.avail)
      have left : (src.drop buffer.avail).length = src.length - buffer.avail := length_drop
      obtain ⟨after, wrote, sound, whole⟩ := @ih (.ofSize chunkSize :: buffer.append (src.take buffer.avail) :: behind)
        (src.drop buffer.avail) (forall_mem_cons.mpr ⟨Chunk.ofSize_fits, forall_mem_cons.mpr ⟨filled, rest⟩⟩) (by omega)
        fun full => absurd full (Nat.ne_of_gt (Chunk.ofSize_avail positive))
      rw [if_pos (by omega), wrote]
      refine ⟨after, rfl, sound, ?_⟩
      rw [whole, asString_cons, asString_cons, data, Chunk.ofSize_data, same]
      simp
    case isFalse short =>
      obtain ⟨filled, data⟩ := here.append (Nat.not_lt.mp short)
      exact ⟨_, rfl, forall_mem_cons.mpr ⟨filled, rest⟩, by rw [asString_cons, data, same, append_assoc]⟩

theorem foldlM_write_spec {writes : List (List UInt8)} (positive : 0 < chunkSize) (fits : ∀ buffer ∈ buffers, buffer.Fits chunkSize)
    (enough : ∀ src ∈ writes, src.length + 1 < fuel) :
    ∃ after, writes.foldlM (write chunkSize fuel) buffers = some after ∧
      (∀ buffer ∈ after, buffer.Fits chunkSize) ∧ asString after = asString buffers ++ writes.flatten := by
  induction writes generalizing buffers with
  | nil => exact ⟨buffers, rfl, fits, (append_nil _).symm⟩
  | cons src writes ih =>
    obtain ⟨turns, enough⟩ := forall_mem_cons.mp enough
    obtain ⟨next, wrote, fits, whole⟩ := write_spec positive fits (Nat.lt_of_succ_lt turns) fun _ => turns
    obtain ⟨after, others, fits, rest⟩ := ih fits enough
    rw [foldlM_cons, wrote, flatten_cons, ← append_assoc, ← whole]
    exact ⟨after, others, fits, rest⟩

/-- A write ends within two turns more than it has bytes. -/
theorem written_bytes {writes : List (List UInt8)} (positive : 0 < chunkSize) (enough : ∀ src ∈ writes, src.length + 1 < fuel) :
    ∃ buffers, writes.foldlM (write chunkSize fuel) [] = some buffers ∧
      (∀ buffer ∈ buffers, buffer.Fits chunkSize) ∧ asString buffers = writes.flatten :=
  foldlM_write_spec positive nofun enough

theorem written_bytes_over_chunks : ∃ buffers, [[1, 2, 3], [], [4]].foldlM (write 2 5) [] = some buffers ∧
    (∀ buffer ∈ buffers, buffer.Fits 2) ∧ asString buffers = [1, 2, 3, 4] :=
  written_bytes (by decide) (by decide)

end YdbSdk.Kafka
