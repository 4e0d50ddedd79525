import HermesA2A.JsonText
import HermesA2A.Server.Http

/-!
# Signed notifications

A push notification is sent with a signature of its body, and the receiver signs what it has
parsed to compare the two.  The payload is serialised in three places: where it is signed, where
it is sent and where the signature is checked.

The keyed hash is a parameter (`KeyedHash`), of which nothing is assumed.  A text with half of a
surrogate pair has no bytes: `encode` raises and nothing is sent.

* `loads_dumpsSorted` — the body is parsed to the payload with its keys sorted.
* `verifyHmac_sign` — what is signed with a key is verified with it.
* `signature_survives` — the header that is sent verifies the body that is sent, and the order of
  the keys does not matter.
-/

namespace HermesA2A

/-- The digest of a message, from the bytes of a key and its own. -/
abbrev KeyedHash := ByteArray → ByteArray → List UInt8

/-- `hexdigest` -/
def hexdigest (digest : List UInt8) : String :=
  String.ofList (digest.flatMap fun b => [(b.toNat / 16).digitChar, (b.toNat % 16).digitChar])

/-- `json.dumps(j, sort_keys=True, ensure_ascii=False)` -/
def Json.dumpsSorted (j : Json) : String := String.ofList j.sortKeys.write

/-- `PushDelivery._sign` -/
def sign (hash : KeyedHash) (payload : Json) (hmacKey : String) : String :=
  let body := payload.dumpsSorted.toUTF8
  "sha256=" ++ hexdigest (hash hmacKey.toUTF8 body)

/-- `verify_hmac` -/
def verifyHmac (hash : KeyedHash) (payload : Json) (signature : Option String) (hmacKey : String) :
    Except PyError Bool :=
  match signature with
  | none => .ok false
  | some signature =>
      if signature = "" then .ok false
      else
        let expected := "sha256=" ++ hexdigest (hash hmacKey.toUTF8 payload.dumpsSorted.toUTF8)
        compareDigest signature expected

/-- What is posted. -/
structure PushRequest where
  url : String
  body : ByteArray
  headers : List (String × String)
  timeout : ℚ

/-- The request that `PushDelivery.deliver` makes. -/
def deliveryRequest (hash : KeyedHash) (url : String) (payload : Json) (hmacKey : String)
    (timeout : ℚ) : PushRequest :=
  let body := payload.dumpsSorted.toUTF8
  let sig := sign hash payload hmacKey
  { url := url
    body := body
    headers := [("Content-Type", "application/json"), ("X-Hub-Signature-256", sig)]
    timeout := timeout }

/-- `PushDelivery.deliver`: `post` returns a status, or raises. -/
def deliver (post : PushRequest → Option ℤ) (hash : KeyedHash) (url : String) (payload : Json)
    (hmacKey : String) (timeout : ℚ) : Bool :=
  match post (deliveryRequest hash url payload hmacKey timeout) with
  | some status => 200 ≤ status ∧ status < 300
  | none => false

/-- What a receiver makes of a body. -/
def parseBody (F : FloatReader) (body : ByteArray) : Option Json :=
  (String.fromUTF8? body).bind fun text => Json.loads F text.toList

/-- **The payload of a notification**: a dictionary of Python values. -/
structure Payload (F : FloatReader) where
  fields : List (String × Json)
  wellFormed : (Json.obj fields).WellFormed F

/-- The payload as a value. -/
def Payload.json {F : FloatReader} (payload : Payload F) : Json := .obj payload.fields

/-! ### The body -/

section Body

variable {F : FloatReader} {v w : Json}

/-- **The text of a value is parsed** to the value with its keys sorted. -/
theorem loads_dumpsSorted (h : v.WellFormed F) :
    parseBody F v.dumpsSorted.toUTF8 = some v.sortKeys := by
  have hdecode : String.fromUTF8? v.dumpsSorted.toUTF8 = some v.dumpsSorted :=
    dif_pos v.dumpsSorted.isValidUTF8
  rw [parseBody, hdecode, Option.bind_some, Json.dumpsSorted, String.toList_ofList,
    Json.loads_write h.sortKeys]

/-- Serialising what was parsed makes the same text. -/
theorem dumpsSorted_sortKeys (v : Json) : v.sortKeys.dumpsSorted = v.dumpsSorted := by
  rw [Json.dumpsSorted, Json.dumpsSorted, Json.sortKeys_sortKeys]

/-- The order of the keys does not matter. -/
theorem dumpsSorted_eq_of_same (hv : v.WellFormed F) (hw : w.WellFormed F) (h : v.Same w) :
    v.dumpsSorted = w.dumpsSorted := by
  rw [Json.dumpsSorted, Json.dumpsSorted, Json.sortKeys_eq_of_same hv hw h]

end Body

/-! ### The signature -/

section Signature

variable {hash : KeyedHash} {payload : Json} {hmacKey : String}

/-- A signature can be compared. -/
theorem ascii_sign : (sign hash payload hmacKey).toList.all (·.toNat < 128) = true := by
  have hdigit : ∀ n < 16, n.digitChar.toNat < 128 := by decide
  have hdigest : ∀ digest : List UInt8, (hexdigest digest).toList =
      digest.flatMap fun b => [(b.toNat / 16).digitChar, (b.toNat % 16).digitChar] :=
    fun _ => String.toList_ofList
  rw [sign, String.toList_append, hdigest, List.all_append, List.all_flatMap, Bool.and_eq_true]
  refine ⟨by decide, List.all_eq_true.mpr fun b _ => ?_⟩
  have hb := b.toNat_lt
  have hhigh := hdigit (b.toNat / 16) (by omega)
  have hlow := hdigit (b.toNat % 16) (by omega)
  simp [hhigh, hlow]

/-- **What is signed with a key is verified with it.** -/
theorem verifyHmac_sign :
    verifyHmac hash payload (some (sign hash payload hmacKey)) hmacKey = .ok true := by
  have hne : sign hash payload hmacKey ≠ "" := by
    unfold sign
    simp
  have hexpected : "sha256=" ++ hexdigest (hash hmacKey.toUTF8 payload.dumpsSorted.toUTF8) =
      sign hash payload hmacKey := rfl
  rw [verifyHmac]
  dsimp only
  rw [if_neg hne, hexpected, compareDigest, if_pos ⟨ascii_sign, ascii_sign⟩, beq_self_eq_true]

end Signature

/-- **Signatures survive transport**: the receiver parses the body and verifies it by the header,
and payloads that are the same value have the same signature. -/
theorem signature_survives (F : FloatReader) (hash : KeyedHash) (url hmacKey : String)
    (payload : Payload F) (timeout : ℚ) :
    (∃ parsed,
      parseBody F (deliveryRequest hash url payload.json hmacKey timeout).body = some parsed ∧
        verifyHmac hash parsed ((deliveryRequest hash url payload.json hmacKey
          timeout).headers.lookup "X-Hub-Signature-256") hmacKey = .ok true) ∧
    ∀ other : Payload F, payload.json.Same other.json →
      sign hash other.json hmacKey = sign hash payload.json hmacKey := by
  refine ⟨⟨payload.json.sortKeys, loads_dumpsSorted payload.wellFormed, ?_⟩, fun other h => ?_⟩
  · have hsign : sign hash payload.json.sortKeys hmacKey = sign hash payload.json hmacKey := by
      rw [sign, sign, dumpsSorted_sortKeys]
    have hheader : (deliveryRequest hash url payload.json hmacKey timeout).headers.lookup
        "X-Hub-Signature-256" = some (sign hash payload.json.sortKeys hmacKey) :=
      congrArg some hsign.symm
    rw [hheader]
    exact verifyHmac_sign
  · have htext : payload.json.dumpsSorted = other.json.dumpsSorted :=
      dumpsSorted_eq_of_same payload.wellFormed other.wellFormed h
    rw [sign, sign, htext]

/-- A payload with two keys. -/
def Payload.sample : Payload String.ofList where
  fields := [("task_id", .str "task-1"), ("state", .obj [("done", .bool true)])]
  wellFormed := ⟨by decide, trivial, ⟨by decide, trivial, trivial⟩, trivial⟩

/-- The same with its keys in another order. -/
def Payload.reordered : Payload String.ofList where
  fields := [("state", .obj [("done", .bool true)]), ("task_id", .str "task-1")]
  wellFormed := ⟨by decide, ⟨by decide, trivial, trivial⟩, trivial, trivial⟩

/-- Both have the same signature. -/
theorem signature_survives_reordered : sign (fun _ _ => []) Payload.reordered.json "key" =
    sign (fun _ _ => []) Payload.sample.json "key" :=
  (signature_survives String.ofList (fun _ _ => []) "https://peer" "key" .sample 10).2 .reordered
    ⟨rfl, ⟨_, rfl, rfl⟩, ⟨_, rfl, rfl, ⟨_, rfl, rfl⟩, trivial⟩, trivial⟩

end HermesA2A
