import Mathlib.Data.Finset.Insert
import Mathlib.Logic.Relation
import MkwiiPs5.Bytes

/-!
# Exception frames of discarded code

`EhFrame.PruneDiscarded` of the patched linker, and the format of the records that it walks over.
-/

namespace EhFrame

open Bytes

/-! ### The linker -/

structure Relocation where
  offset : ℕ
  symbolIndex : ℕ

structure ElfSymbol where
  sectionIndex : ℕ

/-- An object that was read. Objects are told apart by `id`, as references to them are. -/
structure ElfObject where
  id : ℕ
  origin : String
  sections : List (List UInt8)
  symbols : List ElfSymbol
  relocations : ℕ → Option (List Relocation)

inductive Failure
  | argumentOutOfRange
  | elfLink (message : String)

/-- Version 1, "zR", the alignment factors 1 and -8, return address in register 16, and one byte of
augmentation data, the encoding of the addresses of code. -/
def cie : List UInt8 := [1, 0x7A, 0x52, 0, 1, 0x78, 16, 1, 0x1B]

def lengthAt (data : List UInt8) (pos : ℕ) : ℕ := ofLittle (slice data pos 4)

def idAt (data : List UInt8) (pos : ℕ) : ℕ := ofLittle (slice data (pos + 4) 4)

section Prune

variable (obj : ElfObject) (dropped : Finset (ℕ × ℕ)) (relocs : List Relocation)

/-- `r.SymbolIndex < obj.Symbols.Count && dropped.Contains(…)`. -/
def targetsDropped (r : Relocation) : Bool :=
  match obj.symbols[r.symbolIndex]? with
  | some symbol => (obj.id, symbol.sectionIndex) ∈ dropped
  | none => false

/-- The loop that sets `discard`. -/
def discards (data : List UInt8) (pos : ℕ) : Bool :=
  idAt data pos != 0 && relocs.any fun r => r.offset == pos + 8 && targetsDropped obj dropped r

/-- `Clear` and `CopyTo`. -/
def neutralize (data : List UInt8) (pos length : ℕ) : List UInt8 :=
  overwrite (overwrite data (pos + 4) (List.replicate length 0)) (pos + 8) cie

def ignore (pos stop : ℕ) (ignored : Finset ℕ) : Finset ℕ :=
  relocs.foldl
    (fun ignored r => if pos ≤ r.offset ∧ r.offset < stop then insert r.offset ignored else ignored)
    ignored

/-- The walk over the records, with fuel for some of them. -/
def prune : ℕ → ℕ → List UInt8 → Finset ℕ → Option (Except Failure (List UInt8 × Finset ℕ))
  | 0, _, _, _ => none
  | fuel + 1, pos, data, ignored =>
    if data.length < pos + 4 then some (.ok (data, ignored))
    else
      let length := lengthAt data pos
      if length = 0 then some (.ok (data, ignored))
      else if length < 4 ∨ data.length - pos - 4 < length then
        some (.error (.elfLink s!"{obj.origin}: malformed .eh_frame record at {pos}."))
      else
        let stop := pos + 4 + length
        if discards obj dropped relocs data pos then
          if length < 13 then
            some (.error (.elfLink s!"{obj.origin}: discarded FDE is too short to neutralize."))
          else
            prune fuel stop (neutralize data pos length) (ignore relocs pos stop ignored)
        else prune fuel stop data ignored

end Prune

def pruneDiscarded (fuel : ℕ) (obj : ElfObject) (sectionIndex : ℕ) (dropped : Finset (ℕ × ℕ)) :
    Option (Except Failure (List UInt8 × Finset ℕ)) :=
  match obj.sections[sectionIndex]? with
  | none => some (.error .argumentOutOfRange)
  | some data =>
    match obj.relocations sectionIndex with
    | none => some (.ok (data, ∅))
    | some relocs => prune obj dropped relocs fuel 0 data ∅

/-! ### Records -/

/-- A record ends where the next one starts. -/
def Next (data : List UInt8) (pos stop : ℕ) : Prop :=
  4 ≤ lengthAt data pos ∧ stop = pos + 4 + lengthAt data pos ∧ stop ≤ data.length

/-- A walk over the records comes to a position. -/
def Starts (data : List UInt8) : ℕ → Prop := Relation.ReflTransGen (Next data) 0

/-- A record starts at a position, with so many bytes behind its length. -/
structure RecordAt (data : List UInt8) (pos n : ℕ) : Prop where
  start : Starts data pos
  length : lengthAt data pos = n
  four_le : 4 ≤ n
  inside : pos + 4 + n ≤ data.length

/-- The bytes of a number in base 128. -/
def readULEB : List UInt8 → Option (ℕ × List UInt8)
  | [] => none
  | b :: rest =>
    if b.toNat < 128 then some (b.toNat, rest)
    else (readULEB rest).map fun (n, rest) => (b.toNat - 128 + 128 * n, rest)

def readSLEB : List UInt8 → Option (ℤ × List UInt8)
  | [] => none
  | b :: rest =>
    if b.toNat < 64 then some (b.toNat, rest)
    else if b.toNat < 128 then some (b.toNat - 128, rest)
    else (readSLEB rest).map fun (n, rest) => (b.toNat - 128 + 128 * n, rest)

/-- A string up to its zero. -/
def readString : List UInt8 → Option (List UInt8 × List UInt8)
  | [] => none
  | b :: rest =>
    if b = 0 then some ([], rest)
    else (readString rest).map fun (s, rest) => (b :: s, rest)

structure Cie where
  codeAlign : ℕ
  dataAlign : ℤ
  returnRegister : UInt8
  encoding : UInt8
  instructions : List UInt8

/-- A CIE of version 1 whose augmentation is that of the encoding of addresses. -/
def readCie (record : List UInt8) : Option Cie := do
  guard (ofLittle (slice record 0 4) + 4 = record.length ∧ ofLittle (slice record 4 4) = 0)
  let version :: rest := record.drop 8 | none
  guard (version = 1)
  let (augmentation, rest) ← readString rest
  guard (augmentation = [0x7A, 0x52])
  let (codeAlign, rest) ← readULEB rest
  let (dataAlign, rest) ← readSLEB rest
  let returnRegister :: rest := rest | none
  let (size, rest) ← readULEB rest
  guard (size = 1)
  let encoding :: instructions := rest | none
  some ⟨codeAlign, dataAlign, returnRegister, encoding, instructions⟩

/-- A record is a CIE whose instructions do nothing. -/
def IsPaddedCie (record : List UInt8) : Prop :=
  ∃ c, readCie record = some c ∧ ∀ b ∈ c.instructions, b = 0

/-- An FDE whose first address is that of something in a section that was dropped. -/
def Discarded (obj : ElfObject) (dropped : Finset (ℕ × ℕ)) (relocs : List Relocation)
    (data : List UInt8) (pos : ℕ) : Prop :=
  idAt data pos ≠ 0 ∧ ∃ r ∈ relocs, r.offset = pos + 8 ∧
    ∃ symbol, obj.symbols[r.symbolIndex]? = some symbol ∧ (obj.id, symbol.sectionIndex) ∈ dropped

/-- A position is inside a record that is discarded. -/
def Inside (obj : ElfObject) (dropped : Finset (ℕ × ℕ)) (relocs : List Relocation)
    (data : List UInt8) (i : ℕ) : Prop :=
  ∃ pos n, RecordAt data pos n ∧ Discarded obj dropped relocs data pos ∧ pos ≤ i ∧ i < pos + 4 + n

/-- What pruning does to a section, and to the relocations of it. -/
structure Pruned (obj : ElfObject) (dropped : Finset (ℕ × ℕ)) (relocs : List Relocation)
    (data data' : List UInt8) (ignored : Finset ℕ) : Prop where
  length : data'.length = data.length
  records : ∀ pos n, RecordAt data' pos n ↔ RecordAt data pos n
  kept : ∀ pos n, RecordAt data pos n → ¬ Discarded obj dropped relocs data pos →
    slice data' pos (4 + n) = slice data pos (4 + n)
  outside : ∀ i, ¬ Inside obj dropped relocs data i → data'[i]? = data[i]?
  replaced : ∀ pos n, RecordAt data pos n → Discarded obj dropped relocs data pos →
    IsPaddedCie (slice data' pos (4 + n))
  ignored : ∀ i, i ∈ ignored ↔
    (∃ r ∈ relocs, r.offset = i) ∧ Inside obj dropped relocs data i

/-- A record that the linker does not take: its length is not that of a record, or it has to go and is
too short to be replaced. -/
def Refused (obj : ElfObject) (dropped : Finset (ℕ × ℕ)) (relocs : List Relocation)
    (data : List UInt8) (pos : ℕ) : Prop :=
  Starts data pos ∧ pos + 4 ≤ data.length ∧ lengthAt data pos ≠ 0 ∧
    (lengthAt data pos < 4 ∨ data.length < pos + 4 + lengthAt data pos ∨
      lengthAt data pos < 13 ∧ Discarded obj dropped relocs data pos)

end EhFrame
