/-!
# Wave files

Sound as a RIFF/WAVE file with samples of 32-bit floats, in the extensible format.

* `Sound` — channels, sample rate, and the interleaved samples; `Sound.ofCounts` — with counts that fit the
  file;
* `littleEndian`, `ofLittleEndian` — a number as bytes, lowest first, and back;
* `Sound.header`, `Sound.encode` — the file;
* `headerOf?`, `Sound.decode?` — read the header, or all, of a file of that form back.

Main statements: `length_littleEndian`, `ofLittleEndian_littleEndian` (a number that fits reads back),
`toList_encode` (the bytes of a file).
-/

namespace SynthControl.Wave

/-- A number in `k` bytes, lowest first; what does not fit is cut off. -/
def littleEndian : Nat → Nat → List UInt8
  | 0, _ => []
  | k + 1, n => n.toUInt8 :: littleEndian k (n / 256)

/-- The number whose bytes, lowest first, are given. -/
def ofLittleEndian : List UInt8 → Nat
  | [] => 0
  | b :: bs => b.toNat + 256 * ofLittleEndian bs

@[simp] theorem length_littleEndian (k n : Nat) : (littleEndian k n).length = k := by
  induction k generalizing n with
  | zero => rfl
  | succ k ih => simp [littleEndian, ih]

/-- A number that fits reads back; of any other, the part that fits. -/
theorem ofLittleEndian_littleEndian (k n : Nat) :
    ofLittleEndian (littleEndian k n) = n % Nat.pow 256 k := by
  induction k generalizing n with
  | zero => simp [littleEndian, ofLittleEndian, Nat.mod_one]
  | succ k ih =>
    simp only [littleEndian, ofLittleEndian, ih]
    have h : n.toUInt8.toNat = n % 256 := by simp
    rw [h, Nat.pow_eq, Nat.pow_eq, Nat.pow_succ', Nat.mod_mul]

/-- Sound in interleaved samples. -/
structure Sound where
  /-- Samples per frame. -/
  channels : Nat
  /-- Frames per second. -/
  sampleRate : Nat
  samples : List Float32

/-- Sound with any counts: channels have sixteen bits in a file, and the sample rate thirty-two; what does
not fit is cut off. -/
def Sound.ofCounts (channels sampleRate : Int) (samples : List Float32) : Sound :=
  ⟨(channels % UInt16.size).toNat, (sampleRate % UInt32.size).toNat, samples⟩

/-- Bytes per sample. -/
def sampleBytes : Nat := 4

/-- A tag of four letters. -/
def tag (s : String) : List UInt8 := s.toUTF8.data.toList

/-- The format "32-bit float" in the extensible header. -/
def floatFormat : List UInt8 :=
  [3, 0, 0, 0, 0, 0, 0x10, 0, 0x80, 0, 0, 0xAA, 0, 0x38, 0x9B, 0x71]

/-- One bit for each of the first eighteen channels. -/
def channelMask (channels : Nat) : Nat := (1 <<< min channels 18) - 1

/-- Everything in front of the samples, for a number of data bytes. -/
def header (channels sampleRate dataBytes : Nat) : List UInt8 :=
  tag "RIFF" ++ littleEndian 4 (60 + dataBytes) ++ tag "WAVE"
    ++ tag "fmt " ++ littleEndian 4 40
    ++ littleEndian 2 0xFFFE ++ littleEndian 2 channels ++ littleEndian 4 sampleRate
    ++ littleEndian 4 (sampleRate * channels * sampleBytes)
    ++ littleEndian 2 (channels * sampleBytes) ++ littleEndian 2 32
    ++ littleEndian 2 22 ++ littleEndian 2 32 ++ littleEndian 4 (channelMask channels)
    ++ floatFormat
    ++ tag "data" ++ littleEndian 4 dataBytes

/-- The header has sixty-eight bytes. -/
def headerBytes : Nat := 68

/-- The bytes of a sample. -/
def sampleWord (x : Float32) : List UInt8 := littleEndian sampleBytes x.toBits.toNat

namespace Sound

/-- The bytes of a file. -/
def bytes (s : Sound) : List UInt8 :=
  header s.channels s.sampleRate (sampleBytes * s.samples.length) ++ s.samples.flatMap sampleWord

/-- The file. -/
def encode (s : Sound) : ByteArray :=
  let head := (header s.channels s.sampleRate (sampleBytes * s.samples.length)).foldl ByteArray.push .empty
  s.samples.foldl (fun b x => (sampleWord x).foldl ByteArray.push b) head

/-- The file has exactly these bytes. -/
theorem toList_encode (s : Sound) : s.encode.data.toList = s.bytes := by
  have hpush (l : List UInt8) (b : ByteArray) :
      (l.foldl ByteArray.push b).data.toList = b.data.toList ++ l := by
    induction l generalizing b with
    | nil => simp
    | cons c l ih => simp [ih, ByteArray.data_push]
  have hwords (l : List Float32) (b : ByteArray) :
      (l.foldl (fun b x => (sampleWord x).foldl ByteArray.push b) b).data.toList
        = b.data.toList ++ l.flatMap sampleWord := by
    induction l generalizing b with
    | nil => simp
    | cons x l ih => simp [ih, hpush]
  simp [encode, bytes, hwords, hpush]

/-- The samples fill whole frames. -/
def isEven (s : Sound) : Bool := s.samples.length % s.channels == 0

end Sound

/-! ### Reading back -/

/-- The bytes from `start` on, `n` of them. -/
def field (bs : List UInt8) (start n : Nat) : List UInt8 := (bs.drop start).take n

/-- Cut a list of bytes into samples; a rest that is too short is dropped. -/
def samplesOf : List UInt8 → List Float32
  | a :: b :: c :: d :: r =>
    .ofBits (ofLittleEndian [a, b, c, d]).toUInt32 :: samplesOf r
  | _ => []

/-- The size of a frame and the bytes per second fit the places that a header has for them. -/
def isRepresentable (channels sampleRate : Nat) : Bool :=
  channels * sampleBytes < UInt16.size && sampleRate * channels * sampleBytes < UInt32.size

/-- A header of the form that `header` writes: channels, sample rate, and the number of data bytes.  A header
in which the size of a frame or the bytes per second are cut off contradicts itself. -/
def readHeader? (bs : List UInt8) : Option (Nat × Nat × Nat) :=
  let channels := ofLittleEndian (field bs 22 2)
  let sampleRate := ofLittleEndian (field bs 24 4)
  let dataBytes := ofLittleEndian (field bs 64 4)
  if channels ≠ 0 ∧ isRepresentable channels sampleRate ∧ bs = header channels sampleRate dataBytes then
    some (channels, sampleRate, dataBytes)
  else none

/-- The header of a file. -/
def headerOf? (file : ByteArray) : Option (Nat × Nat × Nat) :=
  readHeader? (file.extract 0 headerBytes).data.toList

/-- A file begins like one that `Sound.encode` writes. -/
def isSound (file : ByteArray) : Bool := (headerOf? file).isSome

/-- Read a file of the form that `Sound.encode` writes. -/
def Sound.decodeBytes? (bs : List UInt8) : Option Sound :=
  match readHeader? (bs.take headerBytes) with
  | none => none
  | some (channels, sampleRate, dataBytes) =>
    if bs.length = headerBytes + dataBytes then
      some ⟨channels, sampleRate, samplesOf (bs.drop headerBytes)⟩
    else none

/-- Read a file of the form that `Sound.encode` writes. -/
def Sound.decode? (file : ByteArray) : Option Sound := decodeBytes? file.data.toList

end SynthControl.Wave
