import Mathlib

namespace YdbSdk.Issues

open List

/-! # UTF-8 validation

`IsUtf8` sorts bytes into ranges by a table, such that one mask tests for several of them. -/

abbrev Octet := BitVec 8

def rangeTable : List Octet :=
  replicate 128 0 ++ replicate 16 0x10 ++ replicate 16 0x40 ++ replicate 32 0x20 ++
    [8, 8] ++ replicate 30 2 ++ 10 :: replicate 12 3 ++ [4, 3, 3, 11, 6, 6, 6, 5] ++ replicate 11 8

def getRange (c : Octet) : Octet := rangeTable.getD c.toNat 0

def trans (mask c : Octet) : Bool := getRange c &&& mask ≠ 0

/-- The masks for the bytes after this one. -/
def masks (c : Octet) : Option (List Octet) :=
  if c &&& 0x80 = 0 then some []
  else
    match getRange c with
    | 2 => some [0x70]
    | 3 => some [0x70, 0x70]
    | 4 => some [0x50, 0x70]
    | 5 => some [0x10, 0x70, 0x70]
    | 6 => some [0x70, 0x70, 0x70]
    | 10 => some [0x20, 0x70]
    | 11 => some [0x60, 0x70, 0x70]
    | _ => none

/-- The loop, with the tests that the character it is in has before it. -/
def scan : List Octet → List Octet → Bool
  | [], [] => true
  | _ :: _, [] => false
  | mask :: rest, c :: str => trans mask c && scan rest str
  | [], c :: str => (masks c).any (scan · str)

def isUtf8 (str : List Octet) : Bool := scan [] str

/-- The octets of a character in RFC 3629, section 4. -/
def grammar : List (List (Octet × Octet)) :=
  let tail := (0x80, 0xBF)
  [[(0x00, 0x7F)], [(0xC2, 0xDF), tail],
    [(0xE0, 0xE0), (0xA0, 0xBF), tail], [(0xE1, 0xEC), tail, tail],
    [(0xED, 0xED), (0x80, 0x9F), tail], [(0xEE, 0xEF), tail, tail],
    [(0xF0, 0xF0), (0x90, 0xBF), tail, tail], [(0xF1, 0xF3), tail, tail, tail],
    [(0xF4, 0xF4), (0x80, 0x8F), tail, tail]]

def within (range : Octet × Octet) (octet : Octet) : Bool := range.1 ≤ octet && octet ≤ range.2

def WellFormed (octets : List Octet) : Prop := ∃ ranges ∈ grammar, Forall₂ (within · ·) ranges octets

def bounds : Octet → Octet × Octet
  | 0x10 => (0x80, 0x8F)
  | 0x20 => (0xA0, 0xBF)
  | 0x50 => (0x80, 0x9F)
  | 0x60 => (0x90, 0xBF)
  | _ => (0x80, 0xBF)

theorem trans_eq : ∀ mask ∈ [0x10, 0x20, 0x50, 0x60, 0x70], ∀ c : Octet,
    trans mask c = within (bounds mask) c := by
  decide +kernel

theorem masks_listed : ∀ c : Octet, ∀ tests ∈ masks c, ∀ mask ∈ tests,
    mask ∈ [0x10, 0x20, 0x50, 0x60, 0x70] := by
  decide +kernel

/-- The table and the switch on it are the grammar. -/
theorem masks_eq : ∀ c : Octet, (masks c).toList.map (map bounds) =
    (grammar.filter fun ranges => ranges.head?.any (within · c)).map tail := by
  decide +kernel

theorem forall₂_trans {tests : List Octet}
    (listed : ∀ mask ∈ tests, mask ∈ [0x10, 0x20, 0x50, 0x60, 0x70]) :
    Forall₂ (trans · ·) tests octets ↔ Forall₂ (within · ·) (tests.map bounds) octets := by
  rw [forall₂_map_left_iff]
  induction octets generalizing tests with
  | nil => simp
  | cons octet octets ih =>
    cases tests with
    | nil => simp
    | cons mask tests =>
      obtain ⟨known, rest⟩ := forall_mem_cons.mp listed
      simp only [forall₂_cons, trans_eq mask known octet, ih rest]

theorem wellFormed_cons : WellFormed (c :: octets) ↔
    ∃ tests, masks c = some tests ∧ Forall₂ (trans · ·) tests octets := by
  constructor
  · intro wellFormed
    obtain ⟨_, listed, fits⟩ := wellFormed
    cases fits with
    | @cons first _ others _ here rest =>
      have member : others ∈ (grammar.filter fun ranges => ranges.head?.any (within · c)).map tail :=
        mem_map.mpr ⟨first :: others, mem_filter.mpr ⟨listed, here⟩, rfl⟩
      rw [← masks_eq c] at member
      obtain ⟨tests, found, rfl⟩ := mem_map.mp member
      have chosen := Option.mem_toList.mp found
      exact ⟨tests, chosen, (forall₂_trans (masks_listed c tests chosen)).mpr rest⟩
  · intro accepted
    obtain ⟨tests, chosen, fits⟩ := accepted
    have member := mem_map_of_mem (f := map bounds) (Option.mem_toList.mpr chosen)
    rw [masks_eq c] at member
    obtain ⟨ranges, listed, others⟩ := mem_map.mp member
    obtain ⟨inGrammar, here⟩ := mem_filter.mp listed
    rw [forall₂_trans (masks_listed c tests chosen), ← others] at fits
    cases ranges with
    | nil => contradiction
    | cons first ranges => exact ⟨_, inGrammar, .cons here fits⟩

theorem scan_iff : scan tests str ↔
    ∃ octets rest, Forall₂ (trans · ·) tests octets ∧ str = octets ++ rest ∧ isUtf8 rest := by
  induction tests generalizing str with
  | nil => simp [isUtf8]
  | cons mask tests ih =>
    cases str with
    | nil => simp [scan]
    | cons c str =>
      rw [scan, Bool.and_eq_true, ih]
      constructor
      · intro passed
        obtain ⟨here, octets, rest, fits, rfl, accepted⟩ := passed
        exact ⟨c :: octets, rest, .cons here fits, rfl, accepted⟩
      · intro split
        obtain ⟨_, rest, fits, same, accepted⟩ := split
        cases fits with
        | cons here fits =>
          obtain ⟨rfl, rfl⟩ := cons.inj same
          exact ⟨here, _, rest, fits, rfl, accepted⟩

theorem isUtf8_cons : isUtf8 (c :: str) ↔
    ∃ octets rest, WellFormed (c :: octets) ∧ str = octets ++ rest ∧ isUtf8 rest := by
  rw [isUtf8, scan, Option.any_eq_true]
  constructor
  · intro accepted
    obtain ⟨tests, chosen, scanned⟩ := accepted
    obtain ⟨octets, rest, fits, same, remains⟩ := scan_iff.mp scanned
    exact ⟨octets, rest, wellFormed_cons.mpr ⟨tests, chosen, fits⟩, same, remains⟩
  · intro split
    obtain ⟨octets, rest, wellFormed, same, remains⟩ := split
    obtain ⟨tests, chosen, fits⟩ := wellFormed_cons.mp wellFormed
    exact ⟨tests, chosen, scan_iff.mpr ⟨octets, rest, fits, same, remains⟩⟩

/-- A string is accepted when and only when it is a concatenation of well-formed characters. -/
theorem isUtf8_iff_wellFormed (str : List Octet) : isUtf8 str ↔
    ∃ characters : List (List Octet), (∀ octets ∈ characters, WellFormed octets) ∧
      str = characters.flatten := by
  constructor
  · intro accepted
    induction size : str.length using Nat.strongRecOn generalizing str with
    | ind length ih =>
      cases str with
      | nil => exact ⟨[], nofun, rfl⟩
      | cons c str =>
        obtain ⟨octets, rest, wellFormed, rfl, remains⟩ := isUtf8_cons.mp accepted
        obtain ⟨characters, all, rfl⟩ := ih rest.length (by simp at size; omega) rest remains rfl
        exact ⟨(c :: octets) :: characters, forall_mem_cons.mpr ⟨wellFormed, all⟩, rfl⟩
  · intro split
    obtain ⟨characters, all, rfl⟩ := split
    induction characters with
    | nil => rfl
    | cons octets characters ih =>
      obtain ⟨wellFormed, rest⟩ := forall_mem_cons.mp all
      cases octets with
      | nil => exact ih rest
      | cons c octets => exact isUtf8_cons.mpr ⟨octets, _, wellFormed, rfl, ih rest⟩

end YdbSdk.Issues
