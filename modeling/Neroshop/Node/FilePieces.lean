import Mathlib.Algebra.Group.Nat.Defs
import Mathlib.Order.Lattice

/-!
# The pieces of a file

`hash_file` reads a file piece by piece until the stream has met its end.  A
read sets the end-of-file flag only if it asks for more than there is, so the
file whose size is a multiple of the piece size takes one more read that finds
nothing.
-/

namespace Neroshop.Node

/-- What the allocation of the buffer can throw. -/
inductive BufferFault where
  | lengthError
  | badAlloc
  deriving DecidableEq, Repr

structure FilePiece where
  hash : String
  bytes : Nat := 0
  data : List UInt8

/-- An open `std::ifstream`: what it has not read, and its end-of-file flag. -/
structure InputFile where
  rest : List UInt8
  eof : Bool

/-- The bytes that `read` gets, which are as many as `gcount` says. -/
def InputFile.read (file : InputFile) (count : Nat) : List UInt8 × InputFile :=
  if count ≤ file.rest.length then
    (file.rest.take count, { file with rest := file.rest.drop count })
  else (file.rest, ⟨[], true⟩)

/-- `max_size()` of a vector of bytes. -/
def bufferMaxSize : Nat := 2 ^ 63 - 1

structure FilePieceHasher where
  pieceSize : Nat

section Hasher

variable (sha3256 : List UInt8 → String) (allocates : Nat → Bool)
  (hasher : FilePieceHasher)

def FilePiece.ofData (data : List UInt8) : FilePiece :=
  ⟨sha3256 data, data.length, data⟩

/-- One pass through the body: the stream after the read, and the pieces. -/
def FilePieceHasher.readPiece (file : InputFile)
    (pieceHashes : List FilePiece) : InputFile × List FilePiece :=
  let (bytesRead, file) := file.read hasher.pieceSize
  if 0 < bytesRead.length then
    (file, pieceHashes ++ [.ofData sha3256 bytesRead])
  else (file, pieceHashes)

/-- The loop, with `none` where it has not come to its end after so many
passes. -/
def FilePieceHasher.hashLoop :
    Nat → InputFile × List FilePiece → Option (List FilePiece)
  | 0, (file, pieceHashes) => if file.eof then some pieceHashes else none
  | passes + 1, (file, pieceHashes) =>
      if file.eof then some pieceHashes
      else hashLoop passes (hasher.readPiece sha3256 file pieceHashes)

/-- `hash_file` on the content of the file, which is `none` where it does not
open. -/
def FilePieceHasher.hashFile (passes : Nat) :
    Option (List UInt8) → Except BufferFault (Option (List FilePiece))
  | none => .ok (some [])
  | some content =>
      if bufferMaxSize < hasher.pieceSize then .error .lengthError
      else if hasher.pieceSize ≠ 0 ∧ allocates hasher.pieceSize = false then
        .error .badAlloc
      else .ok (hasher.hashLoop sha3256 passes (⟨content, false⟩, []))

/-! ## What is asked of the pieces -/

structure SplitsContent (content : List UInt8) (pieces : List FilePiece) :
    Prop where
  whole : pieces.flatMap FilePiece.data = content
  full : ∀ piece ∈ pieces.dropLast, piece.data.length = hasher.pieceSize
  last : ∀ piece ∈ pieces.getLast?,
    piece.data ≠ [] ∧ piece.data.length ≤ hasher.pieceSize
  bytes : ∀ piece ∈ pieces, piece.bytes = piece.data.length
  hash : ∀ piece ∈ pieces, piece.hash = sha3256 piece.data

/-- The call comes to its end, and with pieces that make up the file. -/
def HashesContent (content : List UInt8) : Prop :=
  ∃ passes pieces,
    hasher.hashFile sha3256 allocates passes (some content) =
        .ok (some pieces) ∧
      SplitsContent sha3256 hasher content pieces

end Hasher

/-! ## One pass -/

section Pass

variable {sha3256 : List UInt8 → String} {allocates : Nat → Bool}
  {hasher : FilePieceHasher} {rest : List UInt8}

theorem InputFile.read_of_le {file : InputFile} {count : Nat}
    (h : count ≤ file.rest.length) :
    file.read count =
      (file.rest.take count, { file with rest := file.rest.drop count }) :=
  if_pos h

theorem InputFile.read_of_lt {file : InputFile} {count : Nat}
    (h : file.rest.length < count) : file.read count = (file.rest, ⟨[], true⟩) :=
  if_neg (Nat.not_le_of_lt h)

theorem readPiece_full (hsize : 0 < hasher.pieceSize)
    (hle : hasher.pieceSize ≤ rest.length) (pieceHashes : List FilePiece) :
    hasher.readPiece sha3256 ⟨rest, false⟩ pieceHashes =
      (⟨rest.drop hasher.pieceSize, false⟩,
        pieceHashes ++ [.ofData sha3256 (rest.take hasher.pieceSize)]) := by
  have hread : 0 < (rest.take hasher.pieceSize).length := by
    rw [List.length_take]
    omega
  rw [FilePieceHasher.readPiece, InputFile.read_of_le hle]
  exact if_pos hread

theorem readPiece_last (hlt : rest.length < hasher.pieceSize)
    (pieceHashes : List FilePiece) :
    hasher.readPiece sha3256 ⟨rest, false⟩ pieceHashes =
      (⟨[], true⟩, if rest = [] then pieceHashes
        else pieceHashes ++ [.ofData sha3256 rest]) := by
  rw [FilePieceHasher.readPiece, InputFile.read_of_lt hlt]
  cases rest with
  | nil => rfl
  | cons byte rest => rfl

/-- A read of no bytes leaves the stream as it was. -/
theorem readPiece_zero (file : InputFile) (pieceHashes : List FilePiece) :
    FilePieceHasher.readPiece sha3256 ⟨0⟩ file pieceHashes =
      (file, pieceHashes) := by
  rw [FilePieceHasher.readPiece, InputFile.read_of_le (Nat.zero_le _)]
  rfl

/-! ## The whole loop -/

theorem splitsContent_nil : SplitsContent sha3256 hasher [] [] := by
  constructor <;> simp

theorem splitsContent_last (hne : rest ≠ [])
    (hle : rest.length ≤ hasher.pieceSize) :
    SplitsContent sha3256 hasher rest [.ofData sha3256 rest] := by
  constructor <;> simp [FilePiece.ofData, hne, hle]

theorem SplitsContent.cons {pieces : List FilePiece}
    (hsize : 0 < hasher.pieceSize) (hle : hasher.pieceSize ≤ rest.length)
    (hsplits : SplitsContent sha3256 hasher (rest.drop hasher.pieceSize)
      pieces) :
    SplitsContent sha3256 hasher rest
      (.ofData sha3256 (rest.take hasher.pieceSize) :: pieces) := by
  have hlength : (rest.take hasher.pieceSize).length = hasher.pieceSize :=
    List.length_take_of_le hle
  have hne : rest.take hasher.pieceSize ≠ [] := by
    apply List.ne_nil_of_length_pos
    omega
  obtain ⟨hwhole, hfull, hlast, hbytes, hhash⟩ := hsplits
  refine ⟨?_, ?_, ?_, List.forall_mem_cons.mpr ⟨rfl, hbytes⟩,
    List.forall_mem_cons.mpr ⟨rfl, hhash⟩⟩
  · rw [List.flatMap_cons, hwhole]
    exact List.take_append_drop _ _
  · cases pieces with
    | nil => simp
    | cons next pieces =>
        rw [List.dropLast_cons_cons]
        exact List.forall_mem_cons.mpr ⟨hlength, hfull⟩
  · cases pieces with
    | nil =>
        intro piece hpiece
        cases hpiece
        exact ⟨hne, hlength.le⟩
    | cons next pieces =>
        rw [List.getLast?_cons_cons]
        exact hlast

/-- Whatever is left of the file, so many passes bring it to its end. -/
theorem exists_hashLoop (hsize : 0 < hasher.pieceSize) (rest : List UInt8) :
    ∃ passes pieces, SplitsContent sha3256 hasher rest pieces ∧
      ∀ pieceHashes,
        hasher.hashLoop sha3256 passes (⟨rest, false⟩, pieceHashes) =
          some (pieceHashes ++ pieces) := by
  induction hlength : rest.length using Nat.strong_induction_on
    generalizing rest with
  | _ length ih =>
      by_cases hle : hasher.pieceSize ≤ rest.length
      · have hdrop := rest.length_drop (i := hasher.pieceSize)
        obtain ⟨passes, pieces, hsplits, hloop⟩ :=
          ih (length - hasher.pieceSize) (by omega)
            (rest.drop hasher.pieceSize) (by omega)
        refine ⟨passes + 1, _, hsplits.cons hsize hle, fun pieceHashes => ?_⟩
        rw [FilePieceHasher.hashLoop, if_neg Bool.false_ne_true,
          readPiece_full hsize hle, hloop, List.append_assoc]
        rfl
      · have hlt : rest.length < hasher.pieceSize := by omega
        by_cases hne : rest = []
        · refine ⟨1, [], hne ▸ splitsContent_nil, fun pieceHashes => ?_⟩
          rw [FilePieceHasher.hashLoop, if_neg Bool.false_ne_true,
            readPiece_last hlt, if_pos hne, List.append_nil]
          rfl
        · refine ⟨1, _, splitsContent_last hne hlt.le, fun pieceHashes => ?_⟩
          rw [FilePieceHasher.hashLoop, if_neg Bool.false_ne_true,
            readPiece_last hlt, if_neg hne]
          rfl

/-- With a piece size of zero the flag is never set. -/
theorem hashLoop_zero (passes : Nat) (rest : List UInt8)
    (pieceHashes : List FilePiece) :
    FilePieceHasher.hashLoop sha3256 ⟨0⟩ passes
      (⟨rest, false⟩, pieceHashes) = none := by
  induction passes with
  | zero => rfl
  | succ passes ih =>
      rw [FilePieceHasher.hashLoop, if_neg Bool.false_ne_true, readPiece_zero]
      exact ih

end Pass

/-- Every file is split as asked by a hasher whose buffer is one byte or more
and can be had. -/
theorem hashesContent_iff (sha3256 : List UInt8 → String)
    (allocates : Nat → Bool) (hasher : FilePieceHasher)
    (content : List UInt8) :
    HashesContent sha3256 allocates hasher content ↔
      0 < hasher.pieceSize ∧ hasher.pieceSize ≤ bufferMaxSize ∧
        allocates hasher.pieceSize = true := by
  constructor
  · rintro ⟨passes, pieces, hrun, -⟩
    rw [FilePieceHasher.hashFile] at hrun
    split at hrun
    · cases hrun
    · rename_i hmax
      split at hrun
      · cases hrun
      · rename_i hallocates
        obtain ⟨pieceSize⟩ := hasher
        cases pieceSize with
        | zero => rw [hashLoop_zero] at hrun; cases hrun
        | succ size =>
            refine ⟨Nat.succ_pos size, Nat.le_of_not_lt hmax, ?_⟩
            by_contra hnot
            exact hallocates ⟨Nat.succ_ne_zero size, by simpa using hnot⟩
  · rintro ⟨hsize, hmax, hallocates⟩
    obtain ⟨passes, pieces, hsplits, hloop⟩ := exists_hashLoop hsize content
    refine ⟨passes, pieces, ?_, hsplits⟩
    rw [FilePieceHasher.hashFile, if_neg (Nat.not_lt.mpr hmax),
      if_neg (by simp [hallocates]), hloop]
    rfl

/-- Seven bytes and a piece size of zero: no number of passes is enough. -/
theorem piece_size_zero :
    (∀ passes, FilePieceHasher.hashFile (fun _ => "") (fun _ => true) ⟨0⟩
        passes (some (List.replicate 7 255)) = .ok none) ∧
      ¬ HashesContent (fun _ => "") (fun _ => true) ⟨0⟩
        (List.replicate 7 255) := by
  have hrun : ∀ passes,
      FilePieceHasher.hashFile (fun _ => "") (fun _ => true) ⟨0⟩
        passes (some (List.replicate 7 255)) = .ok none := by
    intro passes
    rw [FilePieceHasher.hashFile, if_neg (by decide), if_neg (by simp),
      hashLoop_zero]
  refine ⟨hrun, ?_⟩
  rintro ⟨passes, pieces, hok, -⟩
  rw [hrun passes] at hok
  cases hok

end Neroshop.Node
