import HermesA2A.JsonBytes
import HermesA2A.RemoteCalls
import HermesA2A.SingleResponse

/-!
# Requests and responses as bytes

Between a tool that calls an agent and the handlers of the agent's server there are bytes.
`_http_request` posts the payload in ASCII, and takes at most so many bytes of the response.
The server reads as many bytes as the header says, up to 64 KiB, and sends its response in
UTF-8.

* `httpRequest` — what the caller makes of what comes back.
* `HttpRequest.Receives` — what the server has of the bytes that are posted.
* `admitted_of_receives` — the payload gets to the handlers as it is, if the request is let in and
  its text is not too long.
* `answered_iff` — a response gets to the tool as it is, exactly if it is no error and its text is
  not too long.
-/

namespace HermesA2A

/-! ### The caller -/

/-- What `urllib.request.urlopen` comes back with. -/
inductive UrlOutcome
  | response (data : ByteArray)
  /-- `HTTPError` -/
  | httpError (code : ℕ) (data : ByteArray)
  /-- `URLError`: does its reason tell of a time-out? -/
  | urlError (timedOut : Bool)
  /-- Something else was raised. -/
  | raised (outcome : HttpOutcome)

/-- What `_http_request` has from outside. -/
structure HttpClient where
  floatReader : FloatReader
  /-- `_MAX_RESPONSE_SIZE` -/
  maxResponseSize : ℕ
  /-- `data.decode(errors="replace")` -/
  decodeReplace : ByteArray → String
  /-- The text of what `json.loads(data.decode())` raises. -/
  parseError : ByteArray → String

/-- The body that `_http_request` posts. -/
def requestData (jsonBody : Json) : Option ByteArray :=
  if jsonBody.truthy then some jsonBody.dumpsAscii.toUTF8 else none

/-- `_http_request`, once the request is out. -/
def httpRequest (client : HttpClient) : UrlOutcome → HttpOutcome
  | .response data =>
      let data := data.extract 0 (client.maxResponseSize + 1)
      if data.size > client.maxResponseSize then
        .failed ("Response exceeds " ++ toString client.maxResponseSize ++ " bytes")
      else
        match parseBody client.floatReader data with
        | some j => .body j
        | none => .failed (client.parseError data)
  | .httpError code data =>
      let body := client.decodeReplace (data.extract 0 client.maxResponseSize)
      let detail := if body = "" then "" else ": " ++ String.ofList (body.toList.take 500)
      .failed ("HTTP " ++ toString code ++ detail)
  | .urlError timedOut => if timedOut then .timeoutError else .connectionError
  | .raised outcome => outcome

/-! ### The server -/

/-- `int(self.headers.get("Content-Length", 0))`, for what `urllib` posts. -/
def contentLength (data : Option ByteArray) : ℕ := (data.map ByteArray.size).getD 0

/-- **The request that the server has** of the bytes that are posted: the length, and what
`json.loads` makes of so many bytes. -/
structure HttpRequest.Receives (F : FloatReader) (decode : Json.WideDecoder) (req : HttpRequest)
    (data : Option ByteArray) : Prop where
  contentLength : req.contentLength = some (HermesA2A.contentLength data : ℤ)
  body : req.body =
    Json.loadsBytes F decode ((data.getD ByteArray.empty).extract 0 (HermesA2A.contentLength data))

/-- The bytes of a response. -/
def HttpResponse.data (r : HttpResponse) : ByteArray :=
  if r.status = 204 then ByteArray.empty else r.body.dumpsUtf8.toUTF8

/-- What `urlopen` makes of a response.  No redirection is sent. -/
def HttpResponse.outcome (r : HttpResponse) : UrlOutcome :=
  if 200 ≤ r.status ∧ r.status < 300 then .response r.data else .httpError r.status r.data

/-! ### There and back -/

theorem extract_of_size_le {data : ByteArray} {n : ℕ} (h : data.size ≤ n) :
    data.extract 0 n = data := by
  have hall := @ByteArray.extract_zero_size data
  rw [← hall, ByteArray.extract_extract, Nat.zero_add, Nat.zero_add, Nat.min_eq_right h]

section Exchange

variable {F : FloatReader} {payload : Json}

/-- Each character is one byte. -/
theorem size_dumpsAscii (h : payload.WellFormed F) :
    payload.dumpsAscii.toUTF8.size = payload.dumpsAscii.length := by
  have hascii : ∀ c ∈ JsonLexer.toAscii payload.write, c.toNat < 0x7F := fun c hc =>
    (JsonLexer.lt_of_mem_toAscii (Json.printable_write h) hc).2
  unfold Json.dumpsAscii
  change (String.ofList _).toByteArray.size = _
  rw [String.toByteArray_ofList, List.utf8Encode, List.size_toByteArray, String.length_ofList]
  generalize JsonLexer.toAscii payload.write = text at hascii
  induction text with
  | nil => rfl
  | cons c text ih =>
      have hval : c.val.toNat ≤ 0x7f := Nat.le_of_lt (hascii c List.mem_cons_self)
      have hone : (String.utf8EncodeChar c).length = 1 := by
        unfold String.utf8EncodeChar
        rw [if_pos hval]
        rfl
      rw [List.flatMap_cons, List.length_append, hone, List.length_cons, Nat.add_comm,
        ih fun d hd => hascii d (List.mem_cons_of_mem _ hd)]

theorem length_dumpsAscii_pos (h : payload.WellFormed F) : 0 < payload.dumpsAscii.length := by
  obtain ⟨c, after, htext, -⟩ := Json.write_head h
  unfold Json.dumpsAscii
  rw [String.length_ofList, htext, JsonLexer.toAscii_cons, List.length_append]
  refine Nat.add_pos_left (List.length_pos_iff.mpr ?_) _
  unfold JsonLexer.asciiEscape
  split_ifs <;> simp [JsonLexer.unicodeEscape]

/-- What the handlers are given of what is posted. -/
theorem admitted_of_receives (site : Site) {decode : Json.WideDecoder} {req : HttpRequest}
    (hformed : payload.WellFormed F) (htruthy : payload.truthy = true)
    (h : req.Receives F decode (requestData payload)) :
    req.admitted? site = if checkAuth site req = .ok true ∧ limiterAllow site req = .ok none ∧
      payload.dumpsAscii.length ≤ 65536 then some payload else none := by
  have hdata : requestData payload = some payload.dumpsAscii.toUTF8 := if_pos htruthy
  have hlength : contentLength (requestData payload) = payload.dumpsAscii.length := by
    rw [hdata]
    exact size_dumpsAscii hformed
  have hbody : req.body = some payload := by
    rw [h.body, hlength, hdata]
    change Json.loadsBytes F decode (payload.dumpsAscii.toUTF8.extract 0 _) = _
    rw [extract_of_size_le (Nat.le_of_eq (size_dumpsAscii hformed)),
      Json.loadsBytes_dumpsAscii hformed decode]
  have hpos := length_dumpsAscii_pos hformed
  unfold HttpRequest.admitted?
  rw [h.contentLength, hlength, hbody]
  generalize payload.dumpsAscii.length = n at hpos
  cases hauth : checkAuth site req with
  | error e => simp
  | ok authorised =>
      cases authorised with
      | false => simp
      | true =>
          rcases limiterAllow site req with e | (_ | retryAfter)
          · simp
          · by_cases hn : n ≤ 65536
            · have hlong : ¬((n : ℤ) ≤ 0 ∨ (n : ℤ) > 65536) := by omega
              dsimp only
              rw [if_neg hlong, if_pos ⟨rfl, rfl, hn⟩]
            · have hlong : (n : ℤ) ≤ 0 ∨ (n : ℤ) > 65536 := by omega
              dsimp only
              rw [if_pos hlong, if_neg fun h => hn h.2.2]
          · simp

/-- **What is answered is what the tool is given**, exactly if it is no error, has a body, and
has no more bytes than the tool takes. -/
theorem answered_iff (client : HttpClient) {r : HttpResponse}
    (hformed : r.body.WellFormed client.floatReader) :
    httpRequest client r.outcome = .body r.body ↔
      200 ≤ r.status ∧ r.status < 300 ∧ r.status ≠ 204 ∧
        r.body.dumpsUtf8.toUTF8.size ≤ client.maxResponseSize := by
  have hempty : parseBody client.floatReader ByteArray.empty = none := rfl
  unfold HttpResponse.outcome
  by_cases hstatus : 200 ≤ r.status ∧ r.status < 300
  · rw [if_pos hstatus]
    unfold HttpResponse.data
    split_ifs with hnone
    · refine iff_of_false ?_ fun h => h.2.2.1 hnone
      have hextract : ByteArray.empty.extract 0 (client.maxResponseSize + 1) = ByteArray.empty :=
        extract_of_size_le (Nat.zero_le _)
      rw [httpRequest]
      have hsmall : ¬ByteArray.empty.size > client.maxResponseSize := Nat.not_lt.mpr (Nat.zero_le _)
      rw [hextract, if_neg hsmall, hempty]
      exact fun h => by cases h
    · by_cases hsize : r.body.dumpsUtf8.toUTF8.size ≤ client.maxResponseSize
      · refine iff_of_true ?_ ⟨hstatus.1, hstatus.2, hnone, hsize⟩
        rw [httpRequest]
        rw [extract_of_size_le (Nat.le_succ_of_le hsize), if_neg (Nat.not_lt.mpr hsize),
          Json.parseBody_dumpsUtf8 hformed]
      · refine iff_of_false ?_ fun h => hsize h.2.2.2
        have hlarge : (r.body.dumpsUtf8.toUTF8.extract 0 (client.maxResponseSize + 1)).size >
            client.maxResponseSize := by
          rw [ByteArray.size_extract]
          omega
        rw [httpRequest]
        rw [if_pos hlarge]
        exact fun h => by cases h
  · rw [if_neg hstatus]
    refine iff_of_false ?_ fun h => hstatus ⟨h.1, h.2.1⟩
    rw [httpRequest]
    exact fun h => by cases h

end Exchange

end HermesA2A
