import Registrar.Text.Utf8

/-!
# SHA-512

The 512-bit secure hash of FIPS 180-4. A message is padded to whole blocks of 128 bytes with
its bit length at the end; each block is expanded into a schedule of eighty words, and eighty
rounds mix them into a state of eight. The digest is the final state in lower-case
hexadecimal.

* `pad_length_mod` — a padded message is a whole number of blocks.
* `digest_length` — a digest has 128 digits.
-/

set_option autoImplicit false

namespace Registrar.Digest.Sha512

/-! ## Constants -/

/-- The first 64 bits of the fractional parts of the cube roots of the first eighty primes. -/
def roundConstants : List UInt64 :=
  [ 0x428A2F98D728AE22, 0x7137449123EF65CD, 0xB5C0FBCFEC4D3B2F, 0xE9B5DBA58189DBBC,
    0x3956C25BF348B538, 0x59F111F1B605D019, 0x923F82A4AF194F9B, 0xAB1C5ED5DA6D8118,
    0xD807AA98A3030242, 0x12835B0145706FBE, 0x243185BE4EE4B28C, 0x550C7DC3D5FFB4E2,
    0x72BE5D74F27B896F, 0x80DEB1FE3B1696B1, 0x9BDC06A725C71235, 0xC19BF174CF692694,
    0xE49B69C19EF14AD2, 0xEFBE4786384F25E3, 0x0FC19DC68B8CD5B5, 0x240CA1CC77AC9C65,
    0x2DE92C6F592B0275, 0x4A7484AA6EA6E483, 0x5CB0A9DCBD41FBD4, 0x76F988DA831153B5,
    0x983E5152EE66DFAB, 0xA831C66D2DB43210, 0xB00327C898FB213F, 0xBF597FC7BEEF0EE4,
    0xC6E00BF33DA88FC2, 0xD5A79147930AA725, 0x06CA6351E003826F, 0x142929670A0E6E70,
    0x27B70A8546D22FFC, 0x2E1B21385C26C926, 0x4D2C6DFC5AC42AED, 0x53380D139D95B3DF,
    0x650A73548BAF63DE, 0x766A0ABB3C77B2A8, 0x81C2C92E47EDAEE6, 0x92722C851482353B,
    0xA2BFE8A14CF10364, 0xA81A664BBC423001, 0xC24B8B70D0F89791, 0xC76C51A30654BE30,
    0xD192E819D6EF5218, 0xD69906245565A910, 0xF40E35855771202A, 0x106AA07032BBD1B8,
    0x19A4C116B8D2D0C8, 0x1E376C085141AB53, 0x2748774CDF8EEB99, 0x34B0BCB5E19B48A8,
    0x391C0CB3C5C95A63, 0x4ED8AA4AE3418ACB, 0x5B9CCA4F7763E373, 0x682E6FF3D6B2B8A3,
    0x748F82EE5DEFB2FC, 0x78A5636F43172F60, 0x84C87814A1F0AB72, 0x8CC702081A6439EC,
    0x90BEFFFA23631E28, 0xA4506CEBDE82BDE9, 0xBEF9A3F7B2C67915, 0xC67178F2E372532B,
    0xCA273ECEEA26619C, 0xD186B8C721C0C207, 0xEADA7DD6CDE0EB1E, 0xF57D4F7FEE6ED178,
    0x06F067AA72176FBA, 0x0A637DC5A2C898A6, 0x113F9804BEF90DAE, 0x1B710B35131C471B,
    0x28DB77F523047D84, 0x32CAAB7B40C72493, 0x3C9EBE0A15C9BEBC, 0x431D67C49C100D4C,
    0x4CC5D4BECB3E42B6, 0x597F299CFC657E2A, 0x5FCB6FAB3AD6FAEC, 0x6C44198C4A475817 ]

/-- The working state: eight words. -/
structure State where
  a : UInt64
  b : UInt64
  c : UInt64
  d : UInt64
  e : UInt64
  f : UInt64
  g : UInt64
  h : UInt64

/-- The first 64 bits of the fractional parts of the square roots of the first eight primes. -/
def State.initial : State :=
  { a := 0x6A09E667F3BCC908
    b := 0xBB67AE8584CAA73B
    c := 0x3C6EF372FE94F82B
    d := 0xA54FF53A5F1D36F1
    e := 0x510E527FADE682D1
    f := 0x9B05688C2B3E6C1F
    g := 0x1F83D9ABFB41BD6B
    h := 0x5BE0CD19137E2179 }

/-- Word-by-word sum. -/
def State.add (s t : State) : State :=
  ⟨s.a + t.a, s.b + t.b, s.c + t.c, s.d + t.d, s.e + t.e, s.f + t.f, s.g + t.g, s.h + t.h⟩

def State.words (s : State) : List UInt64 := [s.a, s.b, s.c, s.d, s.e, s.f, s.g, s.h]

/-! ## Word functions -/

/-- Rotation to the right by `n`, where `0 < n < 64`. -/
def rotr (x n : UInt64) : UInt64 := (x >>> n) ||| (x <<< (64 - n))

def bigSigma0 (x : UInt64) : UInt64 := rotr x 28 ^^^ rotr x 34 ^^^ rotr x 39

def bigSigma1 (x : UInt64) : UInt64 := rotr x 14 ^^^ rotr x 18 ^^^ rotr x 41

def smallSigma0 (x : UInt64) : UInt64 := rotr x 1 ^^^ rotr x 8 ^^^ (x >>> 7)

def smallSigma1 (x : UInt64) : UInt64 := rotr x 19 ^^^ rotr x 61 ^^^ (x >>> 6)

/-- Bits of `y` where `x` has a one, bits of `z` elsewhere. -/
def choose (x y z : UInt64) : UInt64 := (x &&& y) ^^^ (~~~x &&& z)

/-- The bit that at least two of the three words have. -/
def majority (x y z : UInt64) : UInt64 := (x &&& y) ^^^ (x &&& z) ^^^ (y &&& z)

/-! ## Padding -/

def wordBytes (x : UInt64) : List UInt8 :=
  ([56, 48, 40, 32, 24, 16, 8, 0] : List UInt64).map fun n => (x >>> n).toUInt8

/-- Zero bytes between the closing one bit and the length field. -/
def zeroCount (length : Nat) : Nat := (239 - length % 128) % 128

/-- **The padded message**: the message, a one bit, zeros, and the bit length in sixteen
bytes. -/
def pad (message : List UInt8) : List UInt8 :=
  let bits := 8 * message.length
  message ++ [0x80] ++ List.replicate (zeroCount message.length) 0
    ++ wordBytes (UInt64.ofNat (bits / UInt64.size)) ++ wordBytes (UInt64.ofNat bits)

theorem pad_length_mod (message : List UInt8) : (pad message).length % 128 = 0 := by
  simp only [pad, wordBytes, zeroCount, List.length_append, List.length_map, List.length_cons,
    List.length_nil, List.length_replicate]
  omega

/-! ## Compression -/

/-- Bytes grouped into words, the highest byte first. -/
def wordsOf : List UInt8 → List UInt64
  | a :: b :: c :: d :: e :: f :: g :: h :: rest =>
      ([a, b, c, d, e, f, g, h].foldl (fun x y => (x <<< 8) ||| y.toUInt64) 0) :: wordsOf rest
  | _ => []

/-- `n` further words of the schedule; `window` holds the last sixteen, the latest first. -/
def extend : Nat → List UInt64 → List UInt64
  | 0, _ => []
  | n + 1, window =>
      let w := smallSigma1 (window.getD 1 0) + window.getD 6 0
        + smallSigma0 (window.getD 14 0) + window.getD 15 0
      w :: extend n (w :: window.take 15)

/-- The eighty words of a block's schedule. -/
def schedule (block : List UInt64) : List UInt64 := block ++ extend 64 block.reverse

/-- One round, with its constant `k` and schedule word `w`. -/
def round (s : State) (kw : UInt64 × UInt64) : State :=
  let t1 := s.h + bigSigma1 s.e + choose s.e s.f s.g + kw.1 + kw.2
  let t2 := bigSigma0 s.a + majority s.a s.b s.c
  ⟨t1 + t2, s.a, s.b, s.c, s.d + t1, s.e, s.f, s.g⟩

/-- The state after one block of sixteen words. -/
def compress (s : State) (block : List UInt64) : State :=
  s.add ((roundConstants.zip (schedule block)).foldl round s)

/-- The state after the blocks of a list of words; `n` is their number. -/
def compressAll : Nat → State → List UInt64 → State
  | 0, s, _ => s
  | n + 1, s, words => compressAll n (compress s (words.take 16)) (words.drop 16)

/-! ## The digest -/

/-- The lowest `n` hexadecimal digits of `x`, the highest first. -/
def hexDigits : Nat → Nat → List Char
  | 0, _ => []
  | n + 1, x => hexDigits n (x / 16) ++ [Nat.digitChar (x % 16)]

theorem hexDigits_length (n x : Nat) : (hexDigits n x).length = n := by
  induction n generalizing x with
  | zero => rfl
  | succ n ih => simp [hexDigits, ih]

/-- **The digest of a message**, as 128 hexadecimal digits. -/
def digest (message : List UInt8) : String :=
  let padded := pad message
  let final := compressAll (padded.length / 128) .initial (wordsOf padded)
  String.ofList (final.words.flatMap fun w => hexDigits 16 w.toNat)

theorem digest_length (message : List UInt8) : (digest message).toList.length = 128 := by
  simp [digest, State.words, hexDigits_length]

end Registrar.Digest.Sha512
