import ArduConfigurator.Lib.LittleEndian

/-! # SHA-256

`sha256.ts`, with its 32-bit words as `UInt32`. -/
namespace ArduConfigurator.Mavlink.Sha256
set_option autoImplicit false

def K : List UInt32 :=
  [0x428a2f98, 0x71374491, 0xb5c0fbcf, 0xe9b5dba5, 0x3956c25b, 0x59f111f1,
    0x923f82a4, 0xab1c5ed5, 0xd807aa98, 0x12835b01, 0x243185be, 0x550c7dc3,
    0x72be5d74, 0x80deb1fe, 0x9bdc06a7, 0xc19bf174, 0xe49b69c1, 0xefbe4786,
    0x0fc19dc6, 0x240ca1cc, 0x2de92c6f, 0x4a7484aa, 0x5cb0a9dc, 0x76f988da,
    0x983e5152, 0xa831c66d, 0xb00327c8, 0xbf597fc7, 0xc6e00bf3, 0xd5a79147,
    0x06ca6351, 0x14292967, 0x27b70a85, 0x2e1b2138, 0x4d2c6dfc, 0x53380d13,
    0x650a7354, 0x766a0abb, 0x81c2c92e, 0x92722c85, 0xa2bfe8a1, 0xa81a664b,
    0xc24b8b70, 0xc76c51a3, 0xd192e819, 0xd6990624, 0xf40e3585, 0x106aa070,
    0x19a4c116, 0x1e376c08, 0x2748774c, 0x34b0bcb5, 0x391c0cb3, 0x4ed8aa4a,
    0x5b9cca4f, 0x682e6ff3, 0x748f82ee, 0x78a5636f, 0x84c87814, 0x8cc70208,
    0x90befffa, 0xa4506ceb, 0xbef9a3f7, 0xc67178f2]

def rotr (x : UInt32) (n : UInt32) : UInt32 := (x >>> n) ||| (x <<< (32 - n))

/-- `h0 … h7`, and the working variables `a … h` of a block. -/
structure Words where
  a : UInt32
  b : UInt32
  c : UInt32
  d : UInt32
  e : UInt32
  f : UInt32
  g : UInt32
  h : UInt32

def initial : Words :=
  ⟨0x6a09e667, 0xbb67ae85, 0x3c6ef372, 0xa54ff53a, 0x510e527f, 0x9b05688c, 0x1f83d9ab, 0x5be0cd19⟩

/-- Four bytes, most significant first, as `setUint32` without `littleEndian` stores them. -/
def beBytes (x : UInt32) : Bytes :=
  [(x >>> 24).toUInt8, (x >>> 16).toUInt8, (x >>> 8).toUInt8, x.toUInt8]

def beWord (b0 b1 b2 b3 : UInt8) : UInt32 :=
  (b0.toUInt32 <<< 24) ||| (b1.toUInt32 <<< 16) ||| (b2.toUInt32 <<< 8) ||| b3.toUInt32

/-- The message with `0x80`, zeros and its length in bits up to a multiple of 64 bytes. -/
def padded (message : Bytes) : Bytes :=
  let messageLength := message.length
  let paddedLength := (messageLength + 8) / 64 * 64 + 64
  let bitLenHigh := UInt32.ofNat (messageLength / 0x20000000)
  let bitLenLow := UInt32.ofNat (messageLength * 8)
  message ++ [0x80] ++ List.replicate (paddedLength - 8 - (messageLength + 1)) 0 ++
    beBytes bitLenHigh ++ beBytes bitLenLow

def words : Bytes → List UInt32
  | b0 :: b1 :: b2 :: b3 :: rest => beWord b0 b1 b2 b3 :: words rest
  | _ => []

/-- `w[16 … 15 + n]` behind the words so far. -/
def schedule (w : List UInt32) : ℕ → List UInt32
  | 0 => w
  | n + 1 =>
      let w := schedule w n
      let before := fun back => w.getD (w.length - back) 0
      let s0 := rotr (before 15) 7 ^^^ rotr (before 15) 18 ^^^ (before 15 >>> 3)
      let s1 := rotr (before 2) 17 ^^^ rotr (before 2) 19 ^^^ (before 2 >>> 10)
      w ++ [before 16 + s0 + before 7 + s1]

def round (v : Words) (k w : UInt32) : Words :=
  let S1 := rotr v.e 6 ^^^ rotr v.e 11 ^^^ rotr v.e 25
  let ch := (v.e &&& v.f) ^^^ (~~~v.e &&& v.g)
  let temp1 := v.h + S1 + ch + k + w
  let S0 := rotr v.a 2 ^^^ rotr v.a 13 ^^^ rotr v.a 22
  let maj := (v.a &&& v.b) ^^^ (v.a &&& v.c) ^^^ (v.b &&& v.c)
  let temp2 := S0 + maj
  ⟨temp1 + temp2, v.a, v.b, v.c, v.d + temp1, v.e, v.f, v.g⟩

def block (v : Words) (chunk : Bytes) : Words :=
  let w := schedule (words chunk) 48
  let z := (K.zip w).foldl (fun v kw => round v kw.1 kw.2) v
  ⟨v.a + z.a, v.b + z.b, v.c + z.c, v.d + z.d, v.e + z.e, v.f + z.f, v.g + z.g, v.h + z.h⟩

def blocks (v : Words) (bytes : Bytes) : ℕ → Words
  | 0 => v
  | n + 1 => blocks (block v (bytes.take 64)) (bytes.drop 64) n

def Words.bytes (v : Words) : Bytes :=
  beBytes v.a ++ beBytes v.b ++ beBytes v.c ++ beBytes v.d ++
    beBytes v.e ++ beBytes v.f ++ beBytes v.g ++ beBytes v.h

def sha256 (message : Bytes) : Bytes :=
  let bytes := padded message
  (blocks initial bytes (bytes.length / 64)).bytes

@[simp] theorem sha256_length (message : Bytes) : (sha256 message).length = 32 := rfl

end ArduConfigurator.Mavlink.Sha256
