import All4One.Foundation.Json
import All4One.Foundation.Sha256
import All4One.Storage.Chunks

open Foundation

namespace All4One

namespace ObjectMetadata

open Json

def write (m : ObjectMetadata) : List Char :=
  "\x7b\"bucket\":\"".toList ++ (writeString m.bucket ++
  (",\"key\":\"".toList ++ (writeString m.key ++
  (",\"size_bytes\":".toList ++ (writeNat m.sizeBytes.toNat ++ ',' ::
  ("\"created_at\":\"".toList ++ (writeString m.createdAt ++
  (",\"modified_at\":\"".toList ++ (writeString m.modifiedAt ++
  (",\"etag\":\"".toList ++ (writeString m.etag ++
  (",\"policy\":\"".toList ++ (writeString m.policy ++
  (",\"replicas\":".toList ++ (writeNat m.replicas ++ ['}'])))))))))))))))

def read (cs : List Char) : Option ObjectMetadata := do
  let cs ← readLiteral "\x7b\"bucket\":\"" cs
  let (bucket, cs) ← readString cs
  let cs ← readLiteral ",\"key\":\"" cs
  let (key, cs) ← readString cs
  let cs ← readLiteral ",\"size_bytes\":" cs
  let (sizeBytes, cs) ← readNat cs
  let cs ← readLiteral "\"created_at\":\"" (cs.drop 1)
  let (createdAt, cs) ← readString cs
  let cs ← readLiteral ",\"modified_at\":\"" cs
  let (modifiedAt, cs) ← readString cs
  let cs ← readLiteral ",\"etag\":\"" cs
  let (etag, cs) ← readString cs
  let cs ← readLiteral ",\"policy\":\"" cs
  let (policy, cs) ← readString cs
  let cs ← readLiteral ",\"replicas\":" cs
  let (replicas, _) ← readNat cs
  some {
    bucket, key, sizeBytes := UInt64.ofNat sizeBytes, createdAt, modifiedAt, etag, policy, replicas
  }

theorem read_write (m : ObjectMetadata) : read m.write = some m :=
  bind_of_some (readLiteral_append _) <| bind_of_some (readString_writeString _) <|
  bind_of_some (readLiteral_append _) <| bind_of_some (readString_writeString _) <|
  bind_of_some (readLiteral_append _) <| bind_of_some (readNat_writeNat _ rfl) <|
  bind_of_some (readLiteral_append _) <| bind_of_some (readString_writeString _) <|
  bind_of_some (readLiteral_append _) <| bind_of_some (readString_writeString _) <|
  bind_of_some (readLiteral_append _) <| bind_of_some (readString_writeString _) <|
  bind_of_some (readLiteral_append _) <| bind_of_some (readString_writeString _) <|
  bind_of_some (readLiteral_append _) <| bind_of_some (readNat_writeNat _ rfl) <|
  by rw [UInt64.ofNat_toNat]

-- What `serde_json` makes of the metadata, and back.
def json : Serde ObjectMetadata Bytes where
  toVec m           := Bytes.ofString (String.ofList m.write)
  fromSlice data    := data.toString?.bind (read ·.toList)
  fromSlice_toVec m := by simp [read_write]

end ObjectMetadata

namespace Storage

namespace Zstd

-- A frame of one block that is stored as it is, which is what becomes of short data.
def header (level : Int) : Bytes :=
  [0x28, 0xb5, 0x2f, 0xfd, 0x00, if level ≤ 3 then 0x58 else if level ≤ 19 then 0x68 else 0x88]

def encodeRaw (level : Int) (data : Bytes) : Except IoError Bytes :=
  if 8 * data.length + 1 < 256 ^ 3 then
    .ok (header level ++ (Bytes.toLe 3 (8 * data.length + 1) ++ data))
  else
    .error .broken

def decodeRaw (encoded : Bytes) : Except String Bytes :=
  let block := Bytes.ofLe ((encoded.drop 6).take 3)
  if encoded.take 5 = (header 0).take 5 ∧ block % 8 = 1 ∧ encoded.length = 9 + block / 8 then
    .ok (encoded.drop 9)
  else
    .error "Unknown frame descriptor"

theorem decodeRaw_encodeRaw {level : Int} {data encoded : Bytes}
    (h : encodeRaw level data = .ok encoded) : decodeRaw encoded = .ok data := by
  rw [encodeRaw] at h
  split at h
  case isFalse => cases h
  case isTrue hl =>
    cases h
    have hb : Bytes.ofLe (Bytes.toLe 3 (8 * data.length + 1)) = 8 * data.length + 1 :=
      Bytes.ofLe_toLe hl
    have h₃ : (Bytes.toLe 3 (8 * data.length + 1)).length = 3 := Bytes.length_toLe _ _
    have hd : (header level ++ (Bytes.toLe 3 (8 * data.length + 1) ++ data)).drop 6 =
        Bytes.toLe 3 (8 * data.length + 1) ++ data := rfl
    have ht : (Bytes.toLe 3 (8 * data.length + 1) ++ data).take 3 =
        Bytes.toLe 3 (8 * data.length + 1) := List.take_left' h₃
    have hr : (header level ++ (Bytes.toLe 3 (8 * data.length + 1) ++ data)).drop 9 = data := by
      rw [← List.append_assoc]
      exact List.drop_left' (by simp [header])
    simp only [decodeRaw, hd, ht, hb, hr]
    rw [if_pos ⟨rfl, by omega, by simp [header]; omega⟩]

end Zstd

-- What the other crates do to short data.
def Crates.reference : Crates where
  sha256 := Sha256.hex
  zstd   := ⟨Zstd.encodeRaw, Zstd.decodeRaw, fun _ _ _ _ h => Zstd.decodeRaw_encodeRaw h⟩
  json   := ObjectMetadata.json

-- SHA-256, with the digests of some texts at hand.
def digest (data : Bytes) : String :=
  if data = Bytes.ofString "hello" then
    "2cf24dba5fb0a30e26e83b2ac5b9e29e1b161e5c1fa7425e73043362938b9824"
  else if data = Bytes.ofString "world" then
    "486ea46224d1bb4fb680f34f7c9ad96a8f24ec88be73ea8e5a6c65260e9cb8a7"
  else if data = Bytes.ofString "bye" then
    "b49f425a7e1f9cff3856329ada223f2f9d368f15a00cf48df16ca95986137fe8"
  else
    Sha256.hex data

theorem hex_eq_digest : Sha256.hex = digest := by
  funext data
  rw [digest]
  split
  case isTrue h => rw [h]; decide +kernel
  case isFalse =>
    split
    case isTrue h => rw [h]; decide +kernel
    case isFalse =>
      split
      case isTrue h => rw [h]; decide +kernel
      case isFalse  => rfl

-- A run on these texts is evaluated with the digests at hand.
theorem Crates.reference_eq : Crates.reference = { Crates.reference with sha256 := digest } :=
  congrArg (fun sha256 => { Crates.reference with sha256 }) hex_eq_digest

-- A disk with nothing on it, and nothing that goes wrong.
def World.empty : World where
  disk.files.cwd     := []
  disk.files.entries := ∅
  disk.index.trees   := ∅
  faults             := []

-- A put of a short text at a fixed time.
def putText (bucket key text : String) (policy : StoragePolicy) : Io ObjectMetadata :=
  putObject .reference (fun _ => "2026-01-01T00:00:00+00:00") "/d" bucket key
    (Bytes.ofString text) policy

def textMetadata (bucket key text : String) (policy : StoragePolicy) : ObjectMetadata :=
  Index.metadata (fun _ => "2026-01-01T00:00:00+00:00") bucket key
    (Sha256.hex (Bytes.ofString text)) (Bytes.ofString text).length policy

end Storage

end All4One
