import All4One.Foundation.Bytes

namespace Foundation.Sha256

-- The words of 32 bits are numbers: sums are taken modulo `2 ^ 32`.
abbrev Word := Nat

def add (x y : Word) : Word := (x + y) % 2 ^ 32
def rotr (n : Nat) (x : Word) : Word := x >>> n ||| x <<< (32 - n) % 2 ^ 32
def ch (x y z : Word) : Word := x &&& y ^^^ (2 ^ 32 - 1 - x) &&& z
def maj (x y z : Word) : Word := x &&& y ^^^ x &&& z ^^^ y &&& z
def bigSigma₀ (x : Word) : Word := rotr 2 x ^^^ rotr 13 x ^^^ rotr 22 x
def bigSigma₁ (x : Word) : Word := rotr 6 x ^^^ rotr 11 x ^^^ rotr 25 x
def sigma₀ (x : Word) : Word := rotr 7 x ^^^ rotr 18 x ^^^ x >>> 3
def sigma₁ (x : Word) : Word := rotr 17 x ^^^ rotr 19 x ^^^ x >>> 10

def constants : List Word := [
  0x428a2f98, 0x71374491, 0xb5c0fbcf, 0xe9b5dba5, 0x3956c25b, 0x59f111f1, 0x923f82a4, 0xab1c5ed5,
  0xd807aa98, 0x12835b01, 0x243185be, 0x550c7dc3, 0x72be5d74, 0x80deb1fe, 0x9bdc06a7, 0xc19bf174,
  0xe49b69c1, 0xefbe4786, 0x0fc19dc6, 0x240ca1cc, 0x2de92c6f, 0x4a7484aa, 0x5cb0a9dc, 0x76f988da,
  0x983e5152, 0xa831c66d, 0xb00327c8, 0xbf597fc7, 0xc6e00bf3, 0xd5a79147, 0x06ca6351, 0x14292967,
  0x27b70a85, 0x2e1b2138, 0x4d2c6dfc, 0x53380d13, 0x650a7354, 0x766a0abb, 0x81c2c92e, 0x92722c85,
  0xa2bfe8a1, 0xa81a664b, 0xc24b8b70, 0xc76c51a3, 0xd192e819, 0xd6990624, 0xf40e3585, 0x106aa070,
  0x19a4c116, 0x1e376c08, 0x2748774c, 0x34b0bcb5, 0x391c0cb3, 0x4ed8aa4a, 0x5b9cca4f, 0x682e6ff3,
  0x748f82ee, 0x78a5636f, 0x84c87814, 0x8cc70208, 0x90befffa, 0xa4506ceb, 0xbef9a3f7, 0xc67178f2]

structure State where
  a : Word
  b : Word
  c : Word
  d : Word
  e : Word
  f : Word
  g : Word
  h : Word

namespace State

def init : State where
  a := 0x6a09e667
  b := 0xbb67ae85
  c := 0x3c6ef372
  d := 0xa54ff53a
  e := 0x510e527f
  f := 0x9b05688c
  g := 0x1f83d9ab
  h := 0x5be0cd19

def words (s : State) : List Word :=
  [s.a, s.b, s.c, s.d, s.e, s.f, s.g, s.h]

def round (s : State) (kw : Word × Word) : State :=
  let t₁ := add s.h <| add (bigSigma₁ s.e) <| add (ch s.e s.f s.g) <| add kw.1 kw.2
  let t₂ := add (bigSigma₀ s.a) (maj s.a s.b s.c)
  ⟨add t₁ t₂, s.a, s.b, s.c, add s.d t₁, s.e, s.f, s.g⟩

def add (s t : State) : State :=
  ⟨Sha256.add s.a t.a, Sha256.add s.b t.b, Sha256.add s.c t.c, Sha256.add s.d t.d,
    Sha256.add s.e t.e, Sha256.add s.f t.f, Sha256.add s.g t.g, Sha256.add s.h t.h⟩

end State

-- The words of the message schedule, the last one first.
def expand : Nat → List Word → List Word
  | 0,     ws => ws
  | n + 1, ws =>
    let w := add (sigma₁ (ws.getD 1 0)) <| add (ws.getD 6 0) <|
      add (sigma₀ (ws.getD 14 0)) (ws.getD 15 0)
    expand n (w :: ws)

def schedule (block : List Word) : List Word :=
  (expand 48 block.reverse).reverse

def compress (s : State) (block : List Word) : State :=
  s.add <| (constants.zip (schedule block)).foldl State.round s

def pad (data : Bytes) : Bytes :=
  data ++ 0x80 :: List.replicate ((119 - data.length % 64) % 64) 0 ++
    (Bytes.toLe 8 (8 * data.length)).reverse

def words : Bytes → List Word
  | b₃ :: b₂ :: b₁ :: b₀ :: bs => Bytes.ofLe [b₀, b₁, b₂, b₃] :: words bs
  | _                          => []

-- The digest of as many blocks as the words make up, and no more than `n`.
def blocks : Nat → State → List Word → State
  | 0,     s, _  => s
  | n + 1, s, ws => if ws = [] then s else blocks n (compress s (ws.take 16)) (ws.drop 16)

def hexWord (w : Word) : List Char :=
  [28, 24, 20, 16, 12, 8, 4, 0].map fun n => Nat.digitChar (w >>> n % 16)

def hex (data : Bytes) : String :=
  let ws := words (pad data)
  String.ofList <| (blocks ws.length .init ws).words.flatMap hexWord

theorem hex_ne_empty (data : Bytes) : hex data ≠ "" := by
  have hl : (hex data).toList.length = 64 := by
    simp [hex, State.words, hexWord]
  intro h
  simp [h] at hl

example : hex (Bytes.ofString "hello") =
    "2cf24dba5fb0a30e26e83b2ac5b9e29e1b161e5c1fa7425e73043362938b9824" := by
  decide +kernel

example : hex [] = "e3b0c44298fc1c149afbf4c8996fb92427ae41e4649b934ca495991b7852b855" := by
  decide +kernel

end Foundation.Sha256
