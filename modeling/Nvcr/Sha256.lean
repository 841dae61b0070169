import Nvcr.Frames
import Nvcr.SecureHashBytes

/-!
# SHA-256 of files and texts

The hash object buffers one block and compresses it when it is full. Sizes are 64-bit, so the
bit count of the final block is the count modulo 2^64. What the file system answers is a
parameter.
-/

namespace Nvcr

open SecureHashStandard (Variables Word)

namespace Sha256

def roundConstants : List UInt32 :=
  [0x428a2f98, 0x71374491, 0xb5c0fbcf, 0xe9b5dba5, 0x3956c25b, 0x59f111f1, 0x923f82a4, 0xab1c5ed5,
    0xd807aa98, 0x12835b01, 0x243185be, 0x550c7dc3, 0x72be5d74, 0x80deb1fe, 0x9bdc06a7, 0xc19bf174,
    0xe49b69c1, 0xefbe4786, 0x0fc19dc6, 0x240ca1cc, 0x2de92c6f, 0x4a7484aa, 0x5cb0a9dc, 0x76f988da,
    0x983e5152, 0xa831c66d, 0xb00327c8, 0xbf597fc7, 0xc6e00bf3, 0xd5a79147, 0x06ca6351, 0x14292967,
    0x27b70a85, 0x2e1b2138, 0x4d2c6dfc, 0x53380d13, 0x650a7354, 0x766a0abb, 0x81c2c92e, 0x92722c85,
    0xa2bfe8a1, 0xa81a664b, 0xc24b8b70, 0xc76c51a3, 0xd192e819, 0xd6990624, 0xf40e3585, 0x106aa070,
    0x19a4c116, 0x1e376c08, 0x2748774c, 0x34b0bcb5, 0x391c0cb3, 0x4ed8aa4a, 0x5b9cca4f, 0x682e6ff3,
    0x748f82ee, 0x78a5636f, 0x84c87814, 0x8cc70208, 0x90befffa, 0xa4506ceb, 0xbef9a3f7, 0xc67178f2]

/-- Rotation to the right by less than the width of a word. -/
def rotr (x n : UInt32) : UInt32 := x >>> n ||| x <<< (32 - n)

/-- The first loop of `transform`: the words of the block. -/
def loadWords (block : Bytes) (words : List UInt32) : List UInt32 :=
  (List.range' 0 16).foldl (fun words index =>
    let offset := index * 4
    words.set index
      ((block.getD offset 0).toUInt32 <<< 24 ||| (block.getD (offset + 1) 0).toUInt32 <<< 16 |||
        (block.getD (offset + 2) 0).toUInt32 <<< 8 ||| (block.getD (offset + 3) 0).toUInt32)) words

/-- The word that the second loop computes from earlier ones. -/
def expandedWord (words : List UInt32) (index : ℕ) : UInt32 :=
  let s0 := rotr (words.getD (index - 15) 0) 7 ^^^ rotr (words.getD (index - 15) 0) 18 ^^^
    (words.getD (index - 15) 0) >>> 3
  let s1 := rotr (words.getD (index - 2) 0) 17 ^^^ rotr (words.getD (index - 2) 0) 19 ^^^
    (words.getD (index - 2) 0) >>> 10
  words.getD (index - 16) 0 + s0 + words.getD (index - 7) 0 + s1

def expandWords (words : List UInt32) : List UInt32 :=
  (List.range' 16 48).foldl (fun words index => words.set index (expandedWord words index)) words

def scheduleWords (block : Bytes) : List UInt32 :=
  expandWords (loadWords block (List.replicate 64 0))

/-- One turn of the third loop of `transform`. -/
def turn (words : List UInt32) (v : Variables) (index : ℕ) : Variables :=
  let s1 := rotr v.e 6 ^^^ rotr v.e 11 ^^^ rotr v.e 25
  let choose := (v.e &&& v.f) ^^^ (~~~v.e &&& v.g)
  let temporary1 := v.h + s1 + choose + roundConstants.getD index 0 + words.getD index 0
  let s0 := rotr v.a 2 ^^^ rotr v.a 13 ^^^ rotr v.a 22
  let majority := (v.a &&& v.b) ^^^ (v.a &&& v.c) ^^^ (v.b &&& v.c)
  let temporary2 := s0 + majority
  { h := v.g, g := v.f, f := v.e, e := v.d + temporary1
    d := v.c, c := v.b, b := v.a, a := temporary1 + temporary2 }

/-- `transform` changes the state words only. -/
def transform (state : Variables) (block : Bytes) : Variables :=
  let v := (List.range 64).foldl (turn (scheduleWords block)) state
  { a := state.a + v.a, b := state.b + v.b, c := state.c + v.c, d := state.d + v.d
    e := state.e + v.e, f := state.f + v.f, g := state.g + v.g, h := state.h + v.h }

end Sha256

/-- The hash object: the eight state words, a buffer of one block, how much of it is filled, and
the number of bytes taken so far. -/
structure Sha256 where
  state : Variables :=
    ⟨0x6a09e667, 0xbb67ae85, 0x3c6ef372, 0xa54ff53a, 0x510e527f, 0x9b05688c, 0x1f83d9ab, 0x5be0cd19⟩
  buffer : Bytes := List.replicate 64 0
  bufferSize : ℕ := 0
  totalBytes : UInt64 := 0
  deriving DecidableEq, Repr

namespace Sha256

def push (hash : Sha256) (byte : UInt8) : Sha256 :=
  { hash with buffer := hash.buffer.set hash.bufferSize byte, bufferSize := hash.bufferSize + 1 }

/-- Compress the buffer and start it anew; its bytes stay. -/
def compressBuffer (hash : Sha256) : Sha256 :=
  { hash with state := transform hash.state hash.buffer, bufferSize := 0 }

@[simp] theorem compressBuffer_state (hash : Sha256) :
    hash.compressBuffer.state = transform hash.state hash.buffer := by
  rw [compressBuffer]

@[simp] theorem compressBuffer_buffer (hash : Sha256) :
    hash.compressBuffer.buffer = hash.buffer := by
  rw [compressBuffer]

@[simp] theorem compressBuffer_bufferSize (hash : Sha256) :
    hash.compressBuffer.bufferSize = 0 := by
  rw [compressBuffer]

@[simp] theorem compressBuffer_totalBytes (hash : Sha256) :
    hash.compressBuffer.totalBytes = hash.totalBytes := by
  rw [compressBuffer]

def updateByte (hash : Sha256) (byte : UInt8) : Sha256 :=
  let pushed := hash.push byte
  if pushed.bufferSize = 64 then pushed.compressBuffer else pushed

def update (hash : Sha256) (input : Bytes) : Sha256 :=
  input.foldl updateByte { hash with totalBytes := hash.totalBytes + UInt64.ofNat input.length }

/-- Push zeros until the buffer holds `size` bytes. -/
def pushZeros (hash : Sha256) (size : ℕ) : Sha256 :=
  (List.range (size - hash.bufferSize)).foldl (fun hash _ => hash.push 0) hash

/-- Write the bit count into the last eight bytes of the buffer, from the last one on. -/
def writeBitLength (hash : Sha256) (bitLength : UInt64) : Sha256 :=
  { hash with
    buffer := (List.range 8).foldl (fun buffer index =>
      buffer.set (63 - index) (bitLength >>> UInt64.ofNat (index * 8)).toUInt8) hash.buffer }

def digest (state : Variables) : Bytes :=
  [state.a, state.b, state.c, state.d, state.e, state.f, state.g, state.h].flatMap fun word =>
    (List.range 4).map fun byte => (word >>> UInt32.ofNat ((3 - byte) * 8)).toUInt8

def finish (hash : Sha256) : Bytes :=
  let bitLength := hash.totalBytes * 8
  let marked := hash.push 0x80
  let opened := if marked.bufferSize > 56 then (marked.pushZeros 64).compressBuffer else marked
  let filled := (opened.pushZeros 56).writeBitLength bitLength
  digest (transform filled.state filled.buffer)

/-- Two lower-case digits for each byte. -/
def toHex (digest : Bytes) : String :=
  String.ofList (digest.flatMap fun byte =>
    [Nat.digitChar (byte.toNat / 16), Nat.digitChar (byte.toNat % 16)])

/-- What reading a path yields: whether it opens, its bytes up to the end or up to a failure. -/
structure InputFile where
  opens : Bool
  content : Bytes
  fails : Bool

/-- The size of the read buffer, one MiB. -/
def bufferBytes : ℕ := 1024 * 1024

/-- The reads of one file. A read that does not fill the buffer ends the stream. -/
def readLoop (hash : Sha256) (content : Bytes) : Sha256 :=
  let chunk := content.take bufferBytes
  let next := if chunk.length > 0 then hash.update chunk else hash
  if _hshort : chunk.length < bufferBytes then next else readLoop next (content.drop bufferBytes)
termination_by content.length
decreasing_by
  have hbuffer : 0 < bufferBytes := by decide
  simp only [chunk, List.length_take] at _hshort
  rw [List.length_drop]
  omega

def ioError (message subsystem : String) : Error := ⟨.ioError, message, subsystem⟩

/-- Hash the files one after the other. -/
def hashFiles (files : String → InputFile) (subsystem : String) :
    Sha256 → List String → Result Sha256
  | hash, [] => .ok hash
  | hash, path :: paths =>
      let file := files path
      if ¬ file.opens then
        .error (ioError ("cannot open file for SHA-256: " ++ path) subsystem)
      else
        let next := hash.readLoop file.content
        if file.fails then .error (ioError ("failed while hashing file: " ++ path) subsystem)
        else hashFiles files subsystem next paths

end Sha256

def sha256Files (files : String → Sha256.InputFile) (paths : List String) (subsystem : String) :
    Result String := do
  let hash ← Sha256.hashFiles files subsystem {} paths
  .ok (Sha256.toHex hash.finish)

def sha256File (files : String → Sha256.InputFile) (path subsystem : String) : Result String :=
  sha256Files files [path] subsystem

def sha256Text (text : Bytes) : String := Sha256.toHex ((({} : Sha256).update text).finish)

example : sha256Text [0x61, 0x62, 0x63] =
    "ba7816bf8f01cfea414140de5dae2223b00361a396177a9cb410ff61f20015ad" := by
  decide +kernel

end Nvcr
