import Mathlib
import SynthControl.Wave

/-!
# Wave files by their chunks

A wave file is a chunk of the form WAVE in which there are further chunks: each has a name of four letters, the size
of its body, and the body.  Whoever reads such a file takes it apart by these sizes, knows nothing of how it was
written, and believes no header that contradicts itself.

* `take?`, `word?` — take some bytes, or a number, from the front; `word?_littleEndian` — a number that fits;
* `Chunk`, `Chunk.bytes`, `chunk?`, `chunks?` — chunks, as bytes and back;
* `riff?`, `Format.read?`, `read?` — the chunks of a file, what its format says, and all of it;
* `chunk?_bytes`, `chunks?_flatMap`, `Format.read?_formatBody`, `samplesOf_flatMap` — **each part reads back**;
* `bytes_eq_chunk` — **a file that is written is a chunk with the format and the samples in it**;
* `IsFileOf`, `Sound.isFileOf` — **it is taken apart by its sizes and reads back as it was**, whatever the number of
  samples;
* `Sound.decode?_encode` — **and so it does for a reader that expects the one header**.

Mathlib is imported whole for `Float32.ofBits_toBits`, which no smaller part of it brings along.
-/

namespace SynthControl.Wave

/-! ### Taking bytes from the front -/

/-- Take some bytes from the front. -/
def take? (n : Nat) (bs : List UInt8) : Option (List UInt8 × List UInt8) :=
  if n ≤ bs.length then some (bs.take n, bs.drop n) else none

/-- Take a number of `k` bytes from the front. -/
def word? (k : Nat) (bs : List UInt8) : Option (Nat × List UInt8) :=
  (take? k bs).map fun (w, rest) => (ofLittleEndian w, rest)

theorem take?_append (bs rest : List UInt8) : take? bs.length (bs ++ rest) = some (bs, rest) := by
  rw [take?, if_pos (by rw [List.length_append]; exact Nat.le_add_right _ _), List.take_left, List.drop_left]

theorem length_of_take? {n : Nat} {bs taken rest : List UInt8} (h : take? n bs = some (taken, rest)) :
    taken.length = n ∧ bs.length = n + rest.length := by
  rw [take?] at h
  split at h <;> cases h
  rw [List.length_take, List.length_drop]
  omega

/-- A number that fits is taken as it was written. -/
theorem word?_littleEndian {k n : Nat} (h : n < Nat.pow 256 k) (rest : List UInt8) :
    word? k (littleEndian k n ++ rest) = some (n, rest) := by
  have htake := take?_append (littleEndian k n) rest
  rw [length_littleEndian] at htake
  rw [word?, htake, Option.map_some]
  dsimp only
  rw [ofLittleEndian_littleEndian, Nat.mod_eq_of_lt h]

/-! ### Chunks -/

/-- A part of a file. -/
structure Chunk where
  /-- Four letters. -/
  name : List UInt8
  body : List UInt8

namespace Chunk

/-- The chunk in a file: a body of odd length is followed by a byte more. -/
def bytes (c : Chunk) : List UInt8 :=
  c.name ++ (littleEndian 4 c.body.length ++ (c.body ++ List.replicate (c.body.length % 2) 0))

/-- The name has four letters, and the size of the body fits its place. -/
structure Fits (c : Chunk) : Prop where
  name : c.name.length = 4
  body : c.body.length < UInt32.size

theorem length_bytes {c : Chunk} (h : c.name.length = 4) :
    c.bytes.length = 8 + c.body.length + c.body.length % 2 := by
  simp only [bytes, List.length_append, length_littleEndian, List.length_replicate, h]
  omega

end Chunk

/-- Take a chunk from the front. -/
def chunk? (bs : List UInt8) : Option (Chunk × List UInt8) := do
  let (name, bs) ← take? 4 bs
  let (size, bs) ← word? 4 bs
  let (body, bs) ← take? size bs
  let (_, bs) ← take? (size % 2) bs
  some (⟨name, body⟩, bs)

/-- A chunk is taken as it was written. -/
theorem chunk?_bytes {c : Chunk} (h : c.Fits) (rest : List UInt8) : chunk? (c.bytes ++ rest) = some (c, rest) := by
  have hname := take?_append c.name
  rw [h.name] at hname
  have hpad := take?_append (List.replicate (c.body.length % 2) 0) rest
  rw [List.length_replicate] at hpad
  have hsize : c.body.length < Nat.pow 256 4 := h.body
  simp only [chunk?, Chunk.bytes, List.append_assoc, hname, word?_littleEndian hsize, take?_append, hpad, bind,
    Option.bind]

/-- **The sizes of a chunk account for all that is taken.** -/
theorem length_of_chunk? {bs rest : List UInt8} {c : Chunk} (h : chunk? bs = some (c, rest)) :
    bs.length = 8 + c.body.length + c.body.length % 2 + rest.length := by
  simp only [chunk?, word?, bind, Option.bind_eq_some_iff, Option.map_eq_some_iff] at h
  obtain ⟨⟨name, bs₁⟩, hname, ⟨size, bs₂⟩, ⟨⟨w, r⟩, hsize, hw⟩, ⟨body, bs₃⟩, hbody, ⟨pad, bs₄⟩, hpad, hc⟩ := h
  cases hw
  cases hc
  obtain ⟨-, h₁⟩ := length_of_take? hname
  obtain ⟨-, h₂⟩ := length_of_take? hsize
  obtain ⟨hlength, h₃⟩ := length_of_take? hbody
  obtain ⟨-, h₄⟩ := length_of_take? hpad
  dsimp only at *
  omega

/-- Cut into chunks, with nothing left over. -/
def chunks? (bs : List UInt8) : Option (List Chunk) :=
  if bs.isEmpty then some []
  else
    match _h : chunk? bs with
    | some (c, rest) => (chunks? rest).map (c :: ·)
    | none => none
termination_by bs.length
decreasing_by
  have := length_of_chunk? _h
  omega

theorem chunks?_append {c : Chunk} (h : c.Fits) (rest : List UInt8) :
    chunks? (c.bytes ++ rest) = (chunks? rest).map (c :: ·) := by
  have hname : 0 < c.name.length := by rw [h.name]; decide
  have hempty : (c.bytes ++ rest).isEmpty = false := by
    rw [List.isEmpty_eq_false_iff, ← List.length_pos_iff, Chunk.bytes, List.append_assoc, List.length_append]
    omega
  rw [chunks?, hempty]
  simp only [Bool.false_eq_true, if_false]
  split
  · next heq =>
    rw [chunk?_bytes h] at heq
    cases heq
    rfl
  · next heq =>
    rw [chunk?_bytes h] at heq
    cases heq

/-- **Chunks read back**, one after the other. -/
theorem chunks?_flatMap {cs : List Chunk} (h : ∀ c ∈ cs, c.Fits) : chunks? (cs.flatMap Chunk.bytes) = some cs := by
  induction cs with
  | nil => rw [List.flatMap_nil, chunks?]; rfl
  | cons c cs ih =>
    rw [List.forall_mem_cons] at h
    rw [List.flatMap_cons, chunks?_append h.1, ih h.2, Option.map_some]

/-- The chunks of a wave file: all of the file is one chunk, whose body is a form and the chunks. -/
def riff? (bs : List UInt8) : Option (List Chunk) := do
  let (whole, rest) ← chunk? bs
  let (form, bs) ← take? 4 whole.body
  if whole.name = tag "RIFF" ∧ form = tag "WAVE" ∧ rest = [] then chunks? bs else none

/-- A wave file with some chunks. -/
def riff (cs : List Chunk) : Chunk := ⟨tag "RIFF", tag "WAVE" ++ cs.flatMap Chunk.bytes⟩

theorem riff?_riff {cs : List Chunk} (hsize : (riff cs).body.length < UInt32.size) (h : ∀ c ∈ cs, c.Fits) :
    riff? (riff cs).bytes = some cs := by
  have hname : (riff cs).name.length = 4 := show (tag "RIFF").length = 4 by decide
  have hwhole := chunk?_bytes ⟨hname, hsize⟩ []
  rw [List.append_nil] at hwhole
  have hform : take? 4 (riff cs).body = some (tag "WAVE", cs.flatMap Chunk.bytes) :=
    take?_append (tag "WAVE") (cs.flatMap Chunk.bytes)
  simp only [riff?, hwhole, hform, bind, Option.bind]
  rw [if_pos ⟨rfl, trivial, trivial⟩]
  exact chunks?_flatMap h

/-! ### The format -/

/-- What a file says of its samples. -/
structure Format where
  channels : Nat
  sampleRate : Nat
  /-- Bits per sample. -/
  bits : Nat
  isFloat : Bool
  deriving DecidableEq, Repr

/-- The body of the chunk with the format of 32-bit floats. -/
def formatBody (channels sampleRate : Nat) : List UInt8 :=
  littleEndian 2 0xFFFE ++ (littleEndian 2 channels ++ (littleEndian 4 sampleRate
    ++ (littleEndian 4 (sampleRate * channels * sampleBytes) ++ (littleEndian 2 (channels * sampleBytes)
    ++ (littleEndian 2 32 ++ (littleEndian 2 22 ++ (littleEndian 2 32
    ++ (littleEndian 4 (channelMask channels) ++ floatFormat))))))))

/-- The identifier 00000003-0000-0010-8000-00AA00389B71, which says that samples are floats, as it stands in a file: the
first three numbers lowest byte first. -/
def floatIdentifier : List UInt8 :=
  [0x03, 0x00, 0x00, 0x00, 0x00, 0x00, 0x10, 0x00, 0x80, 0x00, 0x00, 0xAA, 0x00, 0x38, 0x9B, 0x71]

/-- Read an extensible format, in which all numbers have to agree. -/
def Format.read? (body : List UInt8) : Option Format := do
  let (code, bs) ← word? 2 body
  let (channels, bs) ← word? 2 bs
  let (sampleRate, bs) ← word? 4 bs
  let (bytesPerSecond, bs) ← word? 4 bs
  let (frameBytes, bs) ← word? 2 bs
  let (bits, bs) ← word? 2 bs
  let (extension, bs) ← word? 2 bs
  let (validBits, more) ← word? 2 bs
  let (_, subformat) ← word? 4 more
  if code = 0xFFFE ∧ channels ≠ 0 ∧ 8 * frameBytes = channels * bits ∧ bytesPerSecond = sampleRate * frameBytes
      ∧ extension = bs.length ∧ validBits = bits then
    some ⟨channels, sampleRate, bits, subformat = floatIdentifier⟩
  else none

section

variable {channels sampleRate : Nat}

theorem channels_lt (h : isRepresentable channels sampleRate) : channels < Nat.pow 256 2 := by
  have hframe : channels * sampleBytes < UInt16.size := by
    simp only [isRepresentable, Bool.and_eq_true, decide_eq_true_eq] at h
    exact h.1
  have hsize : UInt16.size = Nat.pow 256 2 := rfl
  rw [sampleBytes] at hframe
  omega

theorem sampleRate_lt (hpos : channels ≠ 0) (h : isRepresentable channels sampleRate) :
    sampleRate < Nat.pow 256 4 := by
  have hsecond : sampleRate * channels * sampleBytes < UInt32.size := by
    simp only [isRepresentable, Bool.and_eq_true, decide_eq_true_eq] at h
    exact h.2
  have hsize : UInt32.size = Nat.pow 256 4 := rfl
  have hle : sampleRate ≤ sampleRate * channels := Nat.le_mul_of_pos_right _ (Nat.pos_of_ne_zero hpos)
  rw [sampleBytes] at hsecond
  omega

theorem channelMask_lt (channels : Nat) : channelMask channels < Nat.pow 256 4 := by
  have hmin : min channels 18 ≤ 18 := Nat.min_le_right _ _
  have hpow : 2 ^ min channels 18 ≤ 2 ^ 18 := Nat.pow_le_pow_right (by decide) hmin
  have hlarge : Nat.pow 256 4 = 2 ^ 32 := by decide
  rw [channelMask, Nat.one_shiftLeft, hlarge]
  omega

theorem length_formatBody (channels sampleRate : Nat) : (formatBody channels sampleRate).length = 40 := by
  simp only [formatBody, List.length_append, length_littleEndian]
  rfl

/-- **The format reads back**, if its numbers fit their places. -/
theorem Format.read?_formatBody (hpos : channels ≠ 0) (h : isRepresentable channels sampleRate) :
    read? (formatBody channels sampleRate) = some ⟨channels, sampleRate, 32, true⟩ := by
  have hchannels := channels_lt h
  have hrate := sampleRate_lt hpos h
  simp only [isRepresentable, Bool.and_eq_true, decide_eq_true_eq] at h
  have hframe : channels * sampleBytes < Nat.pow 256 2 := h.1
  have hsecond : sampleRate * channels * sampleBytes < Nat.pow 256 4 := h.2
  have hmask := word?_littleEndian (channelMask_lt channels) floatFormat
  have hsame : sampleRate * (channels * sampleBytes) = sampleRate * channels * sampleBytes := (Nat.mul_assoc ..).symm
  have hlength : 22 = (littleEndian 2 32 ++ (littleEndian 4 (channelMask channels) ++ floatFormat)).length := by
    simp only [List.length_append, length_littleEndian]
    rfl
  have hbits : 8 * (channels * sampleBytes) = channels * 32 := by
    rw [sampleBytes]
    omega
  have hfloat : floatFormat = floatIdentifier := rfl
  simp only [read?, formatBody, word?_littleEndian (show 0xFFFE < Nat.pow 256 2 by decide),
    word?_littleEndian hchannels, word?_littleEndian hrate, word?_littleEndian hsecond, word?_littleEndian hframe,
    word?_littleEndian (show 32 < Nat.pow 256 2 by decide), word?_littleEndian (show 22 < Nat.pow 256 2 by decide),
    hmask, bind, Option.bind]
  rw [if_pos ⟨trivial, hpos, hbits, hsame.symm, hlength, trivial⟩, decide_eq_true hfloat]

end

/-! ### The one header -/

theorem field_append {n k : Nat} {p w q : List UInt8} (hp : p.length = n) (hw : w.length = k) :
    field (p ++ (w ++ q)) n k = w := by
  rw [field, ← hp, ← hw, List.drop_left, List.take_left]

/-- What stands in a header in front of the channels. -/
def lead (dataBytes : Nat) : List UInt8 :=
  tag "RIFF" ++ littleEndian 4 (60 + dataBytes) ++ tag "WAVE" ++ tag "fmt " ++ littleEndian 4 40
    ++ littleEndian 2 0xFFFE

/-- What stands in a header between the sample rate and the number of data bytes. -/
def middle (channels sampleRate : Nat) : List UInt8 :=
  littleEndian 4 (sampleRate * channels * sampleBytes) ++ littleEndian 2 (channels * sampleBytes)
    ++ littleEndian 2 32 ++ littleEndian 2 22 ++ littleEndian 2 32 ++ littleEndian 4 (channelMask channels)
    ++ floatFormat ++ tag "data"

theorem header_eq (channels sampleRate dataBytes : Nat) :
    header channels sampleRate dataBytes = lead dataBytes ++ (littleEndian 2 channels ++
      (littleEndian 4 sampleRate ++ (middle channels sampleRate ++ littleEndian 4 dataBytes))) := by
  simp only [header, lead, middle, List.append_assoc]

theorem length_lead (dataBytes : Nat) : (lead dataBytes).length = 22 := by
  have htags : (tag "RIFF").length = 4 ∧ (tag "WAVE").length = 4 ∧ (tag "fmt ").length = 4 := by decide
  simp only [lead, List.length_append, length_littleEndian, htags]

theorem length_middle (channels sampleRate : Nat) : (middle channels sampleRate).length = 36 := by
  have htags : (tag "data").length = 4 ∧ floatFormat.length = 16 := by decide
  simp only [middle, List.length_append, length_littleEndian, htags]

theorem length_header (channels sampleRate dataBytes : Nat) :
    (header channels sampleRate dataBytes).length = headerBytes := by
  rw [header_eq]
  simp only [List.length_append, length_littleEndian, length_lead, length_middle]
  rfl

theorem field_channels (channels sampleRate dataBytes : Nat) :
    field (header channels sampleRate dataBytes) 22 2 = littleEndian 2 channels := by
  rw [header_eq]
  exact field_append (length_lead _) (length_littleEndian _ _)

theorem field_sampleRate (channels sampleRate dataBytes : Nat) :
    field (header channels sampleRate dataBytes) 24 4 = littleEndian 4 sampleRate := by
  rw [header_eq, ← List.append_assoc]
  refine field_append ?_ (length_littleEndian _ _)
  rw [List.length_append, length_lead, length_littleEndian]

theorem field_dataBytes (channels sampleRate dataBytes : Nat) :
    field (header channels sampleRate dataBytes) 64 4 = littleEndian 4 dataBytes := by
  rw [header_eq, ← List.append_assoc, ← List.append_assoc, ← List.append_assoc,
    ← List.append_nil (littleEndian 4 dataBytes)]
  refine field_append ?_ (length_littleEndian _ _)
  simp only [List.length_append, length_lead, length_littleEndian, length_middle]

/-- A header whose numbers fit is read as it was written. -/
theorem readHeader?_header {channels sampleRate dataBytes : Nat} (hpos : channels ≠ 0)
    (h : isRepresentable channels sampleRate) (hdata : dataBytes < UInt32.size) :
    readHeader? (header channels sampleRate dataBytes) = some (channels, sampleRate, dataBytes) := by
  have hchannels : channels % Nat.pow 256 2 = channels := Nat.mod_eq_of_lt (channels_lt h)
  have hrate : sampleRate % Nat.pow 256 4 = sampleRate := Nat.mod_eq_of_lt (sampleRate_lt hpos h)
  have hbytes : dataBytes % Nat.pow 256 4 = dataBytes := Nat.mod_eq_of_lt hdata
  simp only [readHeader?, field_channels, field_sampleRate, field_dataBytes, ofLittleEndian_littleEndian, hchannels,
    hrate, hbytes]
  rw [if_pos ⟨hpos, h, trivial⟩]

/-! ### Files -/

/-- What was read from a file. -/
structure Recording where
  format : Format
  samples : List Float32

/-- Read a file of 32-bit floats: the format and the samples, of which there are whole frames. -/
def read? (bs : List UInt8) : Option Recording := do
  let chunks ← riff? bs
  let described ← chunks.find? (·.name = tag "fmt ")
  let data ← chunks.find? (·.name = tag "data")
  let format ← Format.read? described.body
  if format.bits = 32 ∧ format.isFloat ∧ data.body.length % (format.channels * 4) = 0 then
    some ⟨format, samplesOf data.body⟩
  else none

theorem length_sampleWord (x : Float32) : (sampleWord x).length = sampleBytes := length_littleEndian _ _

theorem length_flatMap_sampleWord (xs : List Float32) :
    (xs.flatMap sampleWord).length = sampleBytes * xs.length := by
  induction xs with
  | nil => rfl
  | cons x xs ih =>
    rw [List.flatMap_cons, List.length_append, length_sampleWord, ih, List.length_cons, Nat.mul_succ, Nat.add_comm]

theorem samplesOf_sampleWord (x : Float32) (rest : List UInt8) :
    samplesOf (sampleWord x ++ rest) = x :: samplesOf rest := by
  have hword : ofLittleEndian (littleEndian 4 x.toBits.toNat) = x.toBits.toNat := by
    rw [ofLittleEndian_littleEndian]
    exact Nat.mod_eq_of_lt x.toBits.toNat_lt
  show Float32.ofBits (ofLittleEndian (littleEndian 4 x.toBits.toNat)).toUInt32 :: samplesOf rest = _
  rw [hword, Nat.toUInt32_eq, UInt32.ofNat_toNat, Float32.ofBits_toBits]

/-- **The samples read back**, bit by bit. -/
theorem samplesOf_flatMap (xs : List Float32) : samplesOf (xs.flatMap sampleWord) = xs := by
  induction xs with
  | nil => rfl
  | cons x xs ih => rw [List.flatMap_cons, samplesOf_sampleWord, ih]

namespace Sound

/-- The chunk with the format. -/
def formatChunk (s : Sound) : Chunk := ⟨tag "fmt ", formatBody s.channels s.sampleRate⟩

/-- The chunk with the samples. -/
def dataChunk (s : Sound) : Chunk := ⟨tag "data", s.samples.flatMap sampleWord⟩

section

variable (s : Sound)

theorem length_formatName : s.formatChunk.name.length = 4 := show (tag "fmt ").length = 4 by decide

theorem length_formatBody : s.formatChunk.body.length = 40 := Wave.length_formatBody _ _

theorem length_dataName : s.dataChunk.name.length = 4 := show (tag "data").length = 4 by decide

theorem length_dataBody : s.dataChunk.body.length = sampleBytes * s.samples.length := length_flatMap_sampleWord _

theorem length_riff : (riff [s.formatChunk, s.dataChunk]).body.length = 60 + sampleBytes * s.samples.length := by
  have hform : (tag "WAVE").length = 4 := by decide
  have hformat : s.formatChunk.bytes.length = 48 := by
    rw [Chunk.length_bytes s.length_formatName, s.length_formatBody]
  have hdata : s.dataChunk.bytes.length = 8 + sampleBytes * s.samples.length := by
    rw [Chunk.length_bytes s.length_dataName, s.length_dataBody, sampleBytes]
    omega
  simp only [riff, List.flatMap_cons, List.flatMap_nil, List.length_append, List.length_nil, hform, hformat, hdata]
  omega

/-- **A file that is written is a chunk with the format and the samples in it.** -/
theorem bytes_eq_chunk : s.bytes = (riff [s.formatChunk, s.dataChunk]).bytes := by
  have hodd : (60 + sampleBytes * s.samples.length) % 2 = 0 ∧ sampleBytes * s.samples.length % 2 = 0 := by
    rw [sampleBytes]
    omega
  have hwhole := s.length_riff
  have hdata := s.length_dataBody
  have hformat := s.length_formatBody
  have hbytes : (riff [s.formatChunk, s.dataChunk]).bytes =
      tag "RIFF" ++ (littleEndian 4 (60 + sampleBytes * s.samples.length) ++
        (riff [s.formatChunk, s.dataChunk]).body) := by
    rw [Chunk.bytes, hwhole, hodd.1, List.replicate_zero, List.append_nil]
    rfl
  have hlast : s.dataChunk.bytes =
      tag "data" ++ (littleEndian 4 (sampleBytes * s.samples.length) ++ s.samples.flatMap sampleWord) := by
    rw [Chunk.bytes, hdata, hodd.2, List.replicate_zero, List.append_nil]
    rfl
  have hfirst : s.formatChunk.bytes =
      tag "fmt " ++ (littleEndian 4 40 ++ formatBody s.channels s.sampleRate) := by
    rw [Chunk.bytes, hformat]
    exact congrArg _ (congrArg _ (List.append_nil _))
  rw [hbytes, riff, List.flatMap_cons, List.flatMap_cons, List.flatMap_nil, hfirst, hlast, bytes, header, formatBody]
  simp only [List.append_assoc, List.append_nil]

/-- The numbers of the sound fit the places that a file has for them, and the samples fill whole frames. -/
structure IsStorable : Prop where
  channels : s.channels ≠ 0
  representable : isRepresentable s.channels s.sampleRate
  size : 60 + sampleBytes * s.samples.length < UInt32.size
  even : s.isEven

end

end Sound

/-- A file holds a sound: it is one chunk, with the format and the samples in two chunks whose sizes add up to that of
the file, and read back it has the channels, the sample rate and the samples of the sound, as 32-bit floats. -/
structure IsFileOf (s : Sound) (file : List UInt8) : Prop where
  length_eq : file.length = headerBytes + sampleBytes * s.samples.length
  size_eq : ofLittleEndian (field file 4 4) + 8 = file.length
  chunks : ∃ described data, riff? file = some [⟨tag "fmt ", described⟩, ⟨tag "data", data⟩] ∧ described.length = 40 ∧
    data.length = sampleBytes * s.samples.length
  read_eq : read? file = some ⟨⟨s.channels, s.sampleRate, 32, true⟩, s.samples⟩

namespace Sound

variable {s : Sound}

theorem length_bytes (s : Sound) : s.bytes.length = headerBytes + sampleBytes * s.samples.length := by
  have hname : (riff [s.formatChunk, s.dataChunk]).name.length = 4 := show (tag "RIFF").length = 4 by decide
  rw [bytes_eq_chunk, Chunk.length_bytes hname, length_riff, sampleBytes, headerBytes]
  omega

/-- **A file that is written is taken apart by its sizes and reads back as it was**, however many samples there
are. -/
theorem isFileOf (h : s.IsStorable) : IsFileOf s s.bytes := by
  have hsize := h.size
  have hfits : ∀ c ∈ [s.formatChunk, s.dataChunk], c.Fits := by
    simp only [List.forall_mem_cons, List.not_mem_nil, false_implies, implies_true, and_true]
    refine ⟨⟨s.length_formatName, ?_⟩, ⟨s.length_dataName, ?_⟩⟩
    · rw [s.length_formatBody]
      decide
    · rw [s.length_dataBody]
      omega
  have hchunks : riff? s.bytes = some [s.formatChunk, s.dataChunk] := by
    rw [s.bytes_eq_chunk]
    exact riff?_riff (by rw [s.length_riff]; exact hsize) hfits
  refine ⟨s.length_bytes, ?_, ⟨_, _, hchunks, s.length_formatBody, s.length_dataBody⟩, ?_⟩
  · have hfield : field s.bytes 4 4 = littleEndian 4 (60 + sampleBytes * s.samples.length) := by
      rw [s.bytes_eq_chunk, Chunk.bytes, s.length_riff]
      exact field_append (p := tag "RIFF") (by decide) (length_littleEndian _ _)
    rw [hfield, ofLittleEndian_littleEndian, Nat.mod_eq_of_lt (show _ < Nat.pow 256 4 from hsize), s.length_bytes,
      headerBytes]
    omega
  · have hread : Format.read? s.formatChunk.body = some ⟨s.channels, s.sampleRate, 32, true⟩ :=
      Format.read?_formatBody h.channels h.representable
    have heven : s.dataChunk.body.length % (s.channels * sampleBytes) = 0 := by
      have hrest : s.samples.length % s.channels = 0 := beq_iff_eq.1 h.even
      rw [s.length_dataBody, Nat.mul_comm, Nat.mul_mod_mul_right, hrest, Nat.zero_mul]
    have hfirst : [s.formatChunk, s.dataChunk].find? (·.name = tag "fmt ") = some s.formatChunk := by
      rfl
    have hlast : [s.formatChunk, s.dataChunk].find? (·.name = tag "data") = some s.dataChunk := by
      rfl
    have hsamples : samplesOf s.dataChunk.body = s.samples := samplesOf_flatMap _
    simp only [Wave.read?, hchunks, hfirst, hlast, hread, hsamples, bind, Option.bind]
    rw [if_pos ⟨trivial, trivial, heven⟩]

/-- **A reader that expects the one header reads the same.** -/
theorem decode?_encode (h : s.IsStorable) : decode? s.encode = some s := by
  have hsize := h.size
  have hhead := length_header s.channels s.sampleRate (sampleBytes * s.samples.length)
  have htake : s.bytes.take headerBytes = header s.channels s.sampleRate (sampleBytes * s.samples.length) := by
    rw [bytes, ← hhead, List.take_left]
  have hdrop : s.bytes.drop headerBytes = s.samples.flatMap sampleWord := by
    rw [bytes, ← hhead, List.drop_left]
  rw [decode?, toList_encode, decodeBytes?, htake, readHeader?_header h.channels h.representable (by omega)]
  dsimp only
  rw [if_pos s.length_bytes, hdrop, samplesOf_flatMap]

end Sound

end SynthControl.Wave
