/-
  REQUESTS AND RESPONSES AS JSON (`WsRequest` and `WsResponse` of `relay/src/ws.rs`, with the code `serde`
  derives for them).

  A request is an object with a tag, `op`, and the fields of the operation, each exactly once and each a
  string; other fields are passed over.  (`serde` also reads an array, the tag first and the fields in the
  order in which they are declared.)  A response leaves out the fields it has no value for.

  What the Rust client writes is read back as the request it stands for (`ofJson_depositJson`,
  `ofJson_collectJson`), and it sees in a response just the fields that are there.
-/
import E2EMessaging.Relay.Frame
import E2EMessaging.Relay.WsClient

namespace E2EMessaging.Relay

open E2EMessaging.Lib

/-! ## Requests -/

/-- A string field of an object: it is an error if it is missing, comes twice or is no string. -/
def stringField (fields : List (String × Json)) (key : String) : Option String :=
  match fields.filter fun f => decide (f.1 = key) with
  | [f] => f.2.asStr
  | _ => none

/-- The operation of a tag, and its fields. -/
def WsRequest.ofFields (op : String) (field : String → Option String) : Option WsRequest := do
  match op with
  | "challenge" => return .challenge (← field "recipient_id")
  | "publish_prekey" =>
    return .publishPrekey (← field "recipient_id") (← field "bundle") (← field "challenge_id")
      (← field "pow_solution")
  | "lookup_prekey" => return .lookupPrekey (← field "recipient_id")
  | "send_envelope" =>
    return .sendEnvelope (← field "recipient_id") (← field "envelope") (← field "challenge_id")
      (← field "pow_solution")
  | "pickup_envelope" => return .pickupEnvelope (← field "recipient_id")
  | _ => none

/-- `#[derive(Deserialize)]` of `WsRequest`. -/
def WsRequest.ofJson : Json → Option WsRequest
  | .object fields => do WsRequest.ofFields (← stringField fields "op") (stringField fields)
  | .array (.string op :: elems) => do
    match op, ← elems.mapM Json.asStr with
    | "challenge", [r] => some (.challenge r)
    | "publish_prekey", [r, bundle, cid, sol] => some (.publishPrekey r bundle cid sol)
    | "lookup_prekey", [r] => some (.lookupPrekey r)
    | "send_envelope", [r, envelope, cid, sol] => some (.sendEnvelope r envelope cid sol)
    | "pickup_envelope", [r] => some (.pickupEnvelope r)
    | _, _ => none
  | _ => none

/-- The request that stores in a mailbox. -/
def WsRequest.deposit : Mailbox → (recipientId payload challengeId powSolution : String) → WsRequest
  | .prekeys => .publishPrekey
  | .envelopes => .sendEnvelope

/-- The request that takes from a mailbox. -/
def WsRequest.collect : Mailbox → (recipientId : String) → WsRequest
  | .prekeys => .lookupPrekey
  | .envelopes => .pickupEnvelope

/-- **What the client writes is the request it means.** -/
theorem ofJson_depositJson (box : Mailbox) (r : String) (payload : Bytes) (cid sol : String) :
    WsRequest.ofJson (depositJson box r payload cid sol) =
      some (.deposit box r (b64Encode payload) cid sol) := by
  cases box with
  | prekeys => rfl
  | envelopes => rfl

theorem ofJson_collectJson (box : Mailbox) (r : String) :
    WsRequest.ofJson (collectJson box r) = some (.collect box r) := by
  cases box with
  | prekeys => rfl
  | envelopes => rfl

theorem WsRequest.deposit_op (box : Mailbox) (r payload cid sol : String) :
    (WsRequest.deposit box r payload cid sol).op = .deposit box (box.key r) payload cid sol := by
  cases box with
  | prekeys => rfl
  | envelopes => rfl

theorem WsRequest.deposit_recipientId (box : Mailbox) (r payload cid sol : String) :
    (WsRequest.deposit box r payload cid sol).recipientId = r := by
  cases box with
  | prekeys => rfl
  | envelopes => rfl

/-! ## Responses -/

/-- A field that is skipped if there is nothing in it. -/
def optionalField (key : String) : Option String → List (String × Json)
  | none => []
  | some s => [(key, .string s)]

/-- `#[derive(Serialize)]` of `WsResponse`. -/
def WsResponse.toJson : WsResponse → Json
  | .ok bundle envelope challenge challengeId =>
    .object (("ok", .bool true) :: (optionalField "bundle" bundle ++ optionalField "envelope" envelope ++
      optionalField "challenge" challenge ++ optionalField "challenge_id" challengeId))
  | .err error => .object [("ok", .bool false), ("error", .string error)]

/-- The response is a success exactly if the client takes it for one. -/
theorem toJson_ok_iff (resp : WsResponse) :
    (resp.toJson.index "ok").isTrue = true ↔ ∃ b e c i, resp = .ok b e c i := by
  cases resp with
  | ok b e c i => exact ⟨fun _ => ⟨b, e, c, i, rfl⟩, fun _ => rfl⟩
  | err error => exact ⟨fun h => absurd h Bool.false_ne_true, fun ⟨_, _, _, _, h⟩ => nomatch h⟩

/-- A response that carries a payload. -/
theorem collectResult_eq_ok {box : Mailbox} {resp : Json} {text : String} {bytes : Bytes}
    (hok : (resp.index "ok").isTrue = true) (hfield : (resp.index box.field).asStr = some text)
    (hread : b64Decode text = .ok bytes) : collectResult box resp = .ok bytes := by
  rw [collectResult, if_pos hok]
  simp only [hfield, hread]

/-- **What the client makes of the answer to a collection**: the bytes, whatever they are. -/
theorem collectResult_collectResponse (box : Mailbox) (payload : Bytes) :
    collectResult box (collectResponse box (.ok payload)).toJson = .ok payload := by
  have hread := b64Decode_b64Encode payload
  cases box with
  | prekeys => exact collectResult_eq_ok rfl rfl hread
  | envelopes => exact collectResult_eq_ok rfl rfl hread

end E2EMessaging.Relay
