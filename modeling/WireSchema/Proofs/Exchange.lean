import WireSchema.Proofs.Unpacking

/-!
# Requests and responses

A client builds requests and sends them to a server, which answers them.  Either party packs other
messages besides, and counts the transaction ids that it hands out on its own, so that the same
number may come from both.  Bytes are unpacked in any order, more than once or never.  A response
nevertheless arrives with the id of its request, and no other request has that id.
-/

namespace WireSchema

variable {μ : Type}

/-! ## Two parties -/

/-- A client, a server, and what they have made and sent so far.  Requests are numbered as they are
built.  Whatever comes from a request is kept with its number, so that it can be said what belongs
together; the parties do not look at the numbers. -/
structure Exchange (μ : Type) where
  client : Registry (Payload ⊕ μ)
  server : Registry (Payload ⊕ μ)
  /-- How many transaction ids the client has handed out. -/
  drawn : Nat
  requests : List (Payload ⊕ μ)
  sent : List (Nat × List UInt8)
  received : List (Nat × (Payload ⊕ μ))
  drafts : List (Nat × Schema × Draft)
  answers : List (Nat × (Payload ⊕ μ))
  returned : List (Nat × List UInt8)
  arrived : List (Nat × (Payload ⊕ μ))

namespace Exchange

def start (client server : Registry (Payload ⊕ μ)) : Exchange μ :=
  ⟨client, server, 0, [], [], [], [], [], [], []⟩

/-- The bytes of a packed message; none if it could not be packed. -/
def packets (number : Nat) : Except Failure (List UInt8) → List (Nat × List UInt8)
  | .ok bytes => [(number, bytes)]
  | .error _ => []

/-- An unpacked message; none if there is none in the bytes. -/
def deliveries {α : Type} (number : Nat) : Except CodecError (Option α) → List (Nat × α)
  | .ok (some message) => [(number, message)]
  | .ok none | .error _ => []

/-- How many transaction ids are handed out when a message is packed. -/
def draws [Message μ] (message : μ) : Nat :=
  if (Message.transaction? message).isSome then 0 else 1

/-- What the parties do.  A place is one in the list that the event takes something from; where
there is nothing, nothing happens.  Messages that are neither requests nor answers are packed in
between. -/
inductive Event (μ : Type) where
  | build (request : Record)
  /-- The client packs a request, perhaps not for the first time. -/
  | send (place : Nat)
  | sendOther (message : Payload ⊕ μ)
  | receive (place : Nat)
  | respond (place : Nat)
  | fill (place : Nat) (field : String) (value : Value)
  | fillEnum (place : Nat) (field name : String)
  | finish (place : Nat)
  /-- The server packs an answer, perhaps not for the first time. -/
  | reply (place : Nat)
  | serveOther (message : Payload ⊕ μ)
  | arrive (place : Nat)

/-- A request is built without a transaction id. -/
def build (schema : Schema) (exchange : Exchange μ) (request : Record) : Exchange μ :=
  { exchange with
    requests := exchange.requests ++ [.inl ⟨schema, { request with transaction := none }⟩] }

def respond (exchange : Exchange μ) (place : Nat) : Exchange μ :=
  match exchange.received[place]? with
  | some (number, .inl request) =>
    match request.record.respond request.schema with
    | .ok draft =>
      { exchange with drafts := exchange.drafts ++ [(number, request.schema, draft)] }
    | .error _ => exchange
  | _ => exchange

/-- Changes an answer under construction. -/
def amend (exchange : Exchange μ) (place : Nat)
    (change : Schema → Draft → Except ConstructionError Draft) : Exchange μ :=
  match exchange.drafts[place]? with
  | none => exchange
  | some (number, schema, draft) =>
    match change schema draft with
    | .ok changed =>
      { exchange with drafts := exchange.drafts.set place (number, schema, changed) }
    | .error _ => exchange

def finish (exchange : Exchange μ) (place : Nat) : Exchange μ :=
  match exchange.drafts[place]? with
  | none => exchange
  | some (number, schema, draft) =>
    match draft.finish schema with
    | .ok record =>
      { exchange with answers := exchange.answers ++ [(number, .inl ⟨schema, record⟩)] }
    | .error _ => exchange

theorem requests_respond (exchange : Exchange μ) (place : Nat) :
    (exchange.respond place).requests = exchange.requests := by
  unfold respond
  split
  · split
    · rfl
    · rfl
  · rfl

theorem requests_amend (exchange : Exchange μ) (place : Nat)
    (change : Schema → Draft → Except ConstructionError Draft) :
    (exchange.amend place change).requests = exchange.requests := by
  unfold amend
  split
  · rfl
  · split
    · rfl
    · rfl

theorem requests_finish (exchange : Exchange μ) (place : Nat) :
    (exchange.finish place).requests = exchange.requests := by
  unfold finish
  split
  · rfl
  · split
    · rfl
    · rfl

variable [Message μ]

def send (exchange : Exchange μ) (place : Nat) : Exchange μ :=
  match exchange.requests[place]? with
  | none => exchange
  | some request =>
    let packed := exchange.client.tryPack request
    { exchange with
      client := packed.registry
      drawn := exchange.drawn + draws request
      requests := exchange.requests.set place packed.message
      sent := exchange.sent ++ packets place packed.result }

def sendOther (exchange : Exchange μ) (message : Payload ⊕ μ) : Exchange μ :=
  { exchange with
    client := (exchange.client.tryPack message).registry
    drawn := exchange.drawn + draws message }

def receive (exchange : Exchange μ) (place : Nat) : Exchange μ :=
  match exchange.sent[place]? with
  | none => exchange
  | some (number, bytes) =>
    { exchange with
      received := exchange.received ++ deliveries number (exchange.server.tryUnpack bytes).result }

def reply (exchange : Exchange μ) (place : Nat) : Exchange μ :=
  match exchange.answers[place]? with
  | none => exchange
  | some (number, answer) =>
    let packed := exchange.server.tryPack answer
    { exchange with
      server := packed.registry
      answers := exchange.answers.set place (number, packed.message)
      returned := exchange.returned ++ packets number packed.result }

def serveOther (exchange : Exchange μ) (message : Payload ⊕ μ) : Exchange μ :=
  { exchange with server := (exchange.server.tryPack message).registry }

def arrive (exchange : Exchange μ) (place : Nat) : Exchange μ :=
  match exchange.returned[place]? with
  | none => exchange
  | some (number, bytes) =>
    { exchange with
      arrived := exchange.arrived ++ deliveries number (exchange.client.tryUnpack bytes).result }

def step (schema : Schema) (exchange : Exchange μ) : Event μ → Exchange μ
  | .build request => exchange.build schema request
  | .send place => exchange.send place
  | .sendOther message => exchange.sendOther message
  | .receive place => exchange.receive place
  | .respond place => exchange.respond place
  | .fill place field value =>
    exchange.amend place fun schema draft => draft.set schema field value
  | .fillEnum place field name =>
    exchange.amend place fun schema draft => draft.setEnum schema field name
  | .finish place => exchange.finish place
  | .reply place => exchange.reply place
  | .serveOther message => exchange.serveOther message
  | .arrive place => exchange.arrive place

theorem requests_receive (exchange : Exchange μ) (place : Nat) :
    (exchange.receive place).requests = exchange.requests := by
  unfold receive
  split
  · rfl
  · rfl

theorem requests_reply (exchange : Exchange μ) (place : Nat) :
    (exchange.reply place).requests = exchange.requests := by
  unfold reply
  split
  · rfl
  · rfl

theorem requests_arrive (exchange : Exchange μ) (place : Nat) :
    (exchange.arrive place).requests = exchange.requests := by
  unfold arrive
  split
  · rfl
  · rfl

/-- Any number of events in any order. -/
def run (schema : Schema) (exchange : Exchange μ) (events : List (Event μ)) : Exchange μ :=
  events.foldl (step schema) exchange

end Exchange

/-! ## Transaction ids on the wire -/

variable {schema : Schema}

/-- The payloads of a schema are registered, beside messages of another kind. -/
def Registry.Knows (registry : Registry (Payload ⊕ μ)) (schema : Schema) : Prop :=
  ∀ entry ∈ Payload.all schema, registry.factories.find? entry.1 = some (.inl entry.2)

theorem Registry.knows_register (hgraph : schema.graph.Coherent)
    (registry : Registry (Payload ⊕ μ)) :
    (registry.register ((Payload.all schema).map fun entry => (entry.1, Sum.inl entry.2))).1.Knows
      schema := by
  intro entry hentry
  refine Registry.find?_registerEach ?_ (entry.1, Sum.inl entry.2)
    (List.mem_map.mpr ⟨entry, hentry, rfl⟩)
  intro first hfirst second hsecond hsame
  obtain ⟨one, hone, rfl⟩ := List.mem_map.mp hfirst
  obtain ⟨two, htwo, rfl⟩ := List.mem_map.mp hsecond
  obtain ⟨type, htype, hmessage⟩ := (Registry.mem_all_iff hgraph).mp hone
  obtain ⟨other, hother, hmessage'⟩ := (Registry.mem_all_iff hgraph).mp htwo
  have hselects : one.1 = two.1 := hsame
  rw [hselects, hother, Option.some.injEq] at htype
  rw [hmessage, hmessage', htype]

variable [Message μ]

/-- Bytes that begin with the header of a payload, in which a transaction id stands. -/
def Carries (schema : Schema) (bytes : List UInt8) (id : UInt32) : Prop :=
  ∃ wire type rest, schema.graph.byWireId? wire = some type ∧ bytes = headerBytes wire id ++ rest

/-- A payload of the schema with a transaction id. -/
def Bears (schema : Schema) (message : Payload ⊕ μ) (id : UInt32) : Prop :=
  ∃ record, message = .inl ⟨schema, record⟩ ∧ record.transaction = some id

theorem Bears.transaction_eq {message : Payload ⊕ μ} {id : UInt32}
    (hbears : Bears schema message id) : Message.transaction? message = some id := by
  obtain ⟨record, rfl, htransaction⟩ := hbears
  exact htransaction

/-- The transaction id of a payload stands in the header of what is packed of it. -/
theorem Bears.carries (hgraph : schema.graph.Coherent) {registry : Registry (Payload ⊕ μ)}
    {message : Payload ⊕ μ} {id : UInt32} {bytes : List UInt8}
    (hbears : Bears schema (registry.tryPack message).message id)
    (hpacked : (registry.tryPack message).result = .ok bytes) : Carries schema bytes id := by
  obtain ⟨record, hmessage, htransaction⟩ := hbears
  have hencoded : Registry.encoded (Payload.mk schema record) = .ok bytes := by
    have hsum : Registry.encoded (registry.tryPack message).message = .ok bytes := hpacked
    rw [hmessage] at hsum
    exact hsum
  obtain ⟨hpayload, hdata, -⟩ := Registry.image_of_encoded hencoded
  obtain ⟨wire, body, -, hselects, -, hparts⟩ :=
    Record.exists_payload_parts hgraph hpayload hdata
  rw [htransaction, Option.getD_some] at hparts
  exact ⟨wire, record.type, _, hselects, hparts⟩

theorem Record.transaction_of_decode (record : Record) {reader middle : Reader}
    {transaction : Option UInt32}
    (hheader : Record.readHeader (record.typeIn schema) reader = .ok transaction middle) :
    (record.decode schema reader).1.transaction = (transaction <|> record.transaction) := by
  unfold Record.decode
  simp only [hheader]
  split
  · rfl
  · split
    · rfl
    · rfl

/-- The transaction id in the header of some bytes is that of the payload unpacked from them. -/
theorem Carries.bears (hgraph : schema.graph.Coherent) {registry : Registry (Payload ⊕ μ)}
    (hknows : registry.Knows schema) {bytes : List UInt8} {id : UInt32}
    (hcarries : Carries schema bytes id) {message : Payload ⊕ μ}
    (hunpacked : (registry.tryUnpack bytes).result = .ok (some message)) :
    Bears schema message id := by
  obtain ⟨wire, type, rest, hselects, rfl⟩ := hcarries
  have hfind : registry.factories.find? wire = some (.inl ⟨schema, .empty schema type⟩) :=
    hknows (wire, ⟨schema, .empty schema type⟩)
      ((Registry.mem_all_iff hgraph).mpr ⟨type, hselects, rfl⟩)
  have hheader := Record.recovers_readHeader hgraph id hselects 0 rest
  have htransaction := Record.transaction_of_decode (.empty schema type) hheader
  obtain ⟨left, hdecode⟩ := Registry.exists_decode_of_find rfl hfind hunpacked
  have hmessage := (congrArg Prod.fst hdecode).symm
  exact ⟨_, hmessage, htransaction⟩

/-! ## Ids that are handed out -/

theorem TransactionCounter.add_succ (first : UInt32) (count : Nat) :
    first + UInt32.ofNat count + 1 = first + UInt32.ofNat (count + 1) := by
  rw [UInt32.ofNat_add, UInt32.add_assoc]
  rfl

/-- A counter does not hand out a number again before it comes round to it. -/
theorem TransactionCounter.eq_of_add_eq {first : UInt32} {one two : Nat} (hone : one < UInt32.size)
    (htwo : two < UInt32.size) (hsame : first + UInt32.ofNat one = first + UInt32.ofNat two) :
    one = two := by
  have hnumbers := congrArg UInt32.toNat hsame
  rw [UInt32.toNat_add, UInt32.toNat_add, UInt32.toNat_ofNat', UInt32.toNat_ofNat'] at hnumbers
  have hfirst := first.toNat_lt
  rw [UInt32.size] at hone htwo
  omega

namespace Exchange

/-- The request with a number has a transaction id. -/
def HasId (requests : List (Payload ⊕ μ)) (number : Nat) (id : UInt32) : Prop :=
  ∃ request, requests[number]? = some request ∧ Message.transaction? request = some id

/-- What is kept with the number of a request goes with the transaction id of that request. -/
def Tracks {α : Type} (requests : List (Payload ⊕ μ)) (Holds : α → UInt32 → Prop)
    (entries : List (Nat × α)) : Prop :=
  ∀ entry ∈ entries, ∃ id, HasId requests entry.1 id ∧ Holds entry.2 id

/-- All that is kept goes with the requests it comes from, and no two requests have one id unless
the ids were used up. -/
structure Sound (schema : Schema) (first : UInt32) (exchange : Exchange μ) : Prop where
  client : exchange.client.Knows schema
  server : exchange.server.Knows schema
  last_eq : exchange.client.transactions.last = first + UInt32.ofNat exchange.drawn
  payload : ∀ request ∈ exchange.requests, ∃ record, request = .inl ⟨schema, record⟩
  drawn : ∀ number id, HasId exchange.requests number id →
    ∃ count, count ≤ exchange.drawn ∧ id = first + UInt32.ofNat count
  distinct : exchange.drawn < UInt32.size → ∀ one two id, HasId exchange.requests one id →
    HasId exchange.requests two id → one = two
  sent : Tracks exchange.requests (Carries schema) exchange.sent
  received : Tracks exchange.requests (Bears schema) exchange.received
  drafts : Tracks exchange.requests
    (fun draft id => draft.1 = schema ∧ draft.2.record.transaction = some id) exchange.drafts
  answers : Tracks exchange.requests (Bears schema) exchange.answers
  returned : Tracks exchange.requests (Carries schema) exchange.returned
  arrived : Tracks exchange.requests (Bears schema) exchange.arrived

/-! ## Lists of entries -/

section Tracks

variable {α : Type} {requests later : List (Payload ⊕ μ)} {Holds : α → UInt32 → Prop}
  {entries added : List (Nat × α)}

theorem tracks_nil : Tracks requests Holds ([] : List (Nat × α)) :=
  fun _ hentry => absurd hentry List.not_mem_nil

theorem Tracks.append (hentries : Tracks requests Holds entries)
    (hadded : Tracks requests Holds added) : Tracks requests Holds (entries ++ added) := by
  intro entry hentry
  rcases List.mem_append.mp hentry with hentry | hentry
  · exact hentries entry hentry
  · exact hadded entry hentry

theorem Tracks.set (hentries : Tracks requests Holds entries) {number : Nat} {value : α}
    {id : UInt32} (place : Nat) (hid : HasId requests number id) (hvalue : Holds value id) :
    Tracks requests Holds (entries.set place (number, value)) := by
  intro entry hentry
  rcases List.mem_or_eq_of_mem_set hentry with hentry | rfl
  · exact hentries entry hentry
  · exact ⟨id, hid, hvalue⟩

theorem Tracks.of_getElem? (hentries : Tracks requests Holds entries) {place number : Nat}
    {value : α} (hplace : entries[place]? = some (number, value)) :
    ∃ id, HasId requests number id ∧ Holds value id :=
  hentries (number, value) (List.mem_of_getElem? hplace)

theorem Tracks.mono (hentries : Tracks requests Holds entries)
    (hkeeps : ∀ number id, HasId requests number id → HasId later number id) :
    Tracks later Holds entries := by
  intro entry hentry
  obtain ⟨id, hid, hvalue⟩ := hentries entry hentry
  exact ⟨id, hkeeps entry.1 id hid, hvalue⟩

theorem tracks_packets {number : Nat} {id : UInt32} {Holds : List UInt8 → UInt32 → Prop}
    {result : Except Failure (List UInt8)} (hid : HasId requests number id)
    (hbytes : ∀ bytes, result = .ok bytes → Holds bytes id) :
    Tracks requests Holds (packets number result) := by
  intro entry hentry
  cases result with
  | error fault => cases hentry
  | ok bytes =>
      rw [packets, List.mem_singleton] at hentry
      subst hentry
      exact ⟨id, hid, hbytes bytes rfl⟩

theorem tracks_deliveries {number : Nat} {id : UInt32} {result : Except CodecError (Option α)}
    (hid : HasId requests number id)
    (hmessage : ∀ message, result = .ok (some message) → Holds message id) :
    Tracks requests Holds (deliveries number result) := by
  intro entry hentry
  cases result with
  | error fault => cases hentry
  | ok unpacked =>
      cases unpacked with
      | none => cases hentry
      | some message =>
          rw [deliveries, List.mem_singleton] at hentry
          subst hentry
          exact ⟨id, hid, hmessage message rfl⟩

end Tracks

/-! ## Requests -/

theorem hasId_append_left {requests added : List (Payload ⊕ μ)} {number : Nat} {id : UInt32}
    (hid : HasId requests number id) : HasId (requests ++ added) number id := by
  obtain ⟨request, hrequest, htransaction⟩ := hid
  have hplace := (List.getElem?_eq_some_iff.mp hrequest).1
  exact ⟨request, by rw [List.getElem?_append_left hplace, hrequest], htransaction⟩

theorem hasId_of_append {requests : List (Payload ⊕ μ)} {request : Payload ⊕ μ} {number : Nat}
    {id : UInt32} (hnone : Message.transaction? request = none)
    (hid : HasId (requests ++ [request]) number id) : HasId requests number id := by
  obtain ⟨found, hfound, htransaction⟩ := hid
  rcases Nat.lt_or_ge number requests.length with hold | hnew
  · rw [List.getElem?_append_left hold] at hfound
    exact ⟨found, hfound, htransaction⟩
  · rw [List.getElem?_append_right hnew] at hfound
    have hsame := List.mem_singleton.mp (List.mem_of_getElem? hfound)
    rw [hsame, hnone] at htransaction
    cases htransaction

theorem hasId_set_iff {requests : List (Payload ⊕ μ)} {request changed : Payload ⊕ μ}
    {place number : Nat} {id : UInt32} (hplace : requests[place]? = some request) :
    HasId (requests.set place changed) number id ↔
      if number = place then Message.transaction? changed = some id
      else HasId requests number id := by
  have hlt := (List.getElem?_eq_some_iff.mp hplace).1
  unfold HasId
  by_cases hsame : number = place
  · subst hsame
    rw [if_pos rfl, List.getElem?_set_self hlt]
    simp
  · rw [if_neg hsame, List.getElem?_set_ne (Ne.symm hsame)]

/-! ## Packing -/

theorem knows_tryPack {registry : Registry (Payload ⊕ μ)} (hknows : registry.Knows schema)
    (message : Payload ⊕ μ) : (registry.tryPack message).registry.Knows schema := by
  intro entry hentry
  have hfactories : (registry.tryPack message).registry.factories = registry.factories :=
    Registry.factories_assign registry message
  rw [hfactories]
  exact hknows entry hentry

theorem last_tryPack (registry : Registry (Payload ⊕ μ)) (message : Payload ⊕ μ) :
    (registry.tryPack message).registry.transactions.last =
      registry.transactions.last + UInt32.ofNat (draws message) := by
  change (registry.assign message).1.transactions.last = _
  unfold draws
  cases hid : Message.transaction? message with
  | none =>
      rw [Registry.assign_of_none registry hid]
      rfl
  | some id =>
      rw [Registry.assign_of_some registry hid]
      exact (UInt32.add_zero _).symm

/-- A message that has a transaction id is packed with it, and the counter stands still. -/
theorem tryPack_of_some {registry : Registry (Payload ⊕ μ)} {message : Payload ⊕ μ} {id : UInt32}
    (hid : Message.transaction? message = some id) :
    (registry.tryPack message).registry = registry ∧
      (registry.tryPack message).message = message := by
  have hassign := Registry.assign_of_some registry hid
  exact ⟨congrArg Prod.fst hassign, congrArg Prod.snd hassign⟩

theorem draws_of_none {record : Record} (hnone : record.transaction = none) :
    draws (Sum.inl ⟨schema, record⟩ : Payload ⊕ μ) = 1 := by
  unfold draws
  change (if record.transaction.isSome then 0 else 1) = 1
  rw [hnone]
  rfl

/-- A payload has a transaction id once it was packed: its own, or else the next one. -/
theorem exists_bears_tryPack (schema : Schema) (registry : Registry (Payload ⊕ μ))
    (record : Record) :
    ∃ id, Bears schema (registry.tryPack (.inl ⟨schema, record⟩)).message id ∧
      (record.transaction = some id ∨
        record.transaction = none ∧ id = registry.transactions.last + 1) := by
  obtain ⟨number, type, slots, transaction⟩ := record
  cases transaction with
  | some id => exact ⟨id, ⟨⟨number, type, slots, some id⟩, rfl, rfl⟩, .inl rfl⟩
  | none =>
      exact ⟨registry.transactions.last + 1,
        ⟨⟨number, type, slots, some (registry.transactions.last + 1)⟩, rfl, rfl⟩, .inr ⟨rfl, rfl⟩⟩

theorem hasId_packed_iff {requests : List (Payload ⊕ μ)} {registry : Registry (Payload ⊕ μ)}
    {place number : Nat} {request : Payload ⊕ μ} {id other : UInt32}
    (hrequest : requests[place]? = some request)
    (hbears : Bears schema (registry.tryPack request).message id) :
    HasId (requests.set place (registry.tryPack request).message) number other ↔
      number = place ∧ other = id ∨ number ≠ place ∧ HasId requests number other := by
  rw [hasId_set_iff hrequest, hbears.transaction_eq]
  by_cases hsame : number = place
  · simp [hsame, eq_comm]
  · simp [hsame]

theorem hasId_packed {requests : List (Payload ⊕ μ)} {registry : Registry (Payload ⊕ μ)}
    {place number : Nat} {request : Payload ⊕ μ} {id other : UInt32}
    (hrequest : requests[place]? = some request)
    (hbears : Bears schema (registry.tryPack request).message id)
    (hid : HasId requests number other) :
    HasId (requests.set place (registry.tryPack request).message) number other := by
  rw [hasId_packed_iff hrequest hbears]
  by_cases hsame : number = place
  · obtain ⟨found, hfound, htransaction⟩ := hid
    rw [hsame, hrequest, Option.some.injEq] at hfound
    rw [← hfound] at htransaction
    have hown := hbears.transaction_eq
    rw [(tryPack_of_some htransaction).2, htransaction, Option.some.injEq] at hown
    exact .inl ⟨hsame, hown⟩
  · exact .inr ⟨hsame, hid⟩

/-! ## Events -/

namespace Sound

variable {first : UInt32} {exchange : Exchange μ}

theorem start {client server : Registry (Payload ⊕ μ)} (hclient : client.Knows schema)
    (hserver : server.Knows schema) :
    Sound schema client.transactions.last (Exchange.start client server) := by
  have hnone : ∀ number id, ¬ HasId ([] : List (Payload ⊕ μ)) number id := by
    rintro number id ⟨request, hrequest, -⟩
    cases hrequest
  constructor
  · exact hclient
  · exact hserver
  · exact (UInt32.add_zero _).symm
  · exact fun request hrequest => absurd hrequest List.not_mem_nil
  · exact fun number id hid => absurd hid (hnone number id)
  · exact fun _ one two id hid => absurd hid (hnone one id)
  all_goals exact tracks_nil

theorem build (hsound : Sound schema first exchange) (request : Record) :
    Sound schema first (exchange.build schema request) := by
  have hkeeps : ∀ number id, HasId exchange.requests number id →
      HasId (exchange.build schema request).requests number id :=
    fun number id hid => hasId_append_left hid
  have hold : ∀ number id, HasId (exchange.build schema request).requests number id →
      HasId exchange.requests number id :=
    fun number id hid => hasId_of_append rfl hid
  refine ⟨hsound.client, hsound.server, hsound.last_eq, ?_, ?_, ?_, ?_, ?_, ?_, ?_, ?_, ?_⟩
  · intro other hother
    rcases List.mem_append.mp hother with hother | hother
    · exact hsound.payload other hother
    · exact ⟨_, List.mem_singleton.mp hother⟩
  · exact fun number id hid => hsound.drawn number id (hold number id hid)
  · intro hdrawn one two id hone htwo
    exact hsound.distinct hdrawn one two id (hold one id hone) (hold two id htwo)
  · exact hsound.sent.mono hkeeps
  · exact hsound.received.mono hkeeps
  · exact hsound.drafts.mono hkeeps
  · exact hsound.answers.mono hkeeps
  · exact hsound.returned.mono hkeeps
  · exact hsound.arrived.mono hkeeps

theorem last_eq_tryPack (hsound : Sound schema first exchange) (message : Payload ⊕ μ) :
    (exchange.client.tryPack message).registry.transactions.last =
      first + UInt32.ofNat (exchange.drawn + draws message) := by
  rw [last_tryPack, hsound.last_eq, UInt32.ofNat_add, UInt32.add_assoc]

theorem sendOther (hsound : Sound schema first exchange) (message : Payload ⊕ μ) :
    Sound schema first (exchange.sendOther message) := by
  refine { hsound with
    client := knows_tryPack hsound.client message
    last_eq := hsound.last_eq_tryPack message
    drawn := ?_
    distinct := ?_ }
  · intro number id hid
    obtain ⟨count, hcount, hsame⟩ := hsound.drawn number id hid
    exact ⟨count, Nat.le_add_right_of_le hcount, hsame⟩
  · intro hdrawn
    exact hsound.distinct (Nat.lt_of_le_of_lt (Nat.le_add_right _ _) hdrawn)

theorem eq_of_hasId (hsound : Sound schema first exchange) {place number : Nat} {record : Record}
    {id : UInt32} (hrequest : exchange.requests[place]? = some (.inl ⟨schema, record⟩))
    (hid : record.transaction = some id ∨
      record.transaction = none ∧ id = exchange.client.transactions.last + 1)
    (hdrawn : exchange.drawn + draws (Sum.inl ⟨schema, record⟩ : Payload ⊕ μ) < UInt32.size)
    (hother : HasId exchange.requests number id) : number = place := by
  rcases hid with hid | ⟨hnone, rfl⟩
  · exact hsound.distinct (Nat.lt_of_le_of_lt (Nat.le_add_right _ _) hdrawn) number place id hother
      ⟨_, hrequest, hid⟩
  · -- The id is new, and the others were handed out before.
    obtain ⟨count, hcount, hsame⟩ := hsound.drawn number _ hother
    rw [draws_of_none hnone] at hdrawn
    rw [hsound.last_eq, TransactionCounter.add_succ] at hsame
    have hcounts := TransactionCounter.eq_of_add_eq hdrawn (by omega) hsame
    omega

theorem exists_count (hsound : Sound schema first exchange) {place : Nat} {record : Record}
    {id : UInt32} (hrequest : exchange.requests[place]? = some (.inl ⟨schema, record⟩))
    (hid : record.transaction = some id ∨
      record.transaction = none ∧ id = exchange.client.transactions.last + 1) :
    ∃ count, count ≤ exchange.drawn + draws (Sum.inl ⟨schema, record⟩ : Payload ⊕ μ) ∧
      id = first + UInt32.ofNat count := by
  rcases hid with hid | ⟨hnone, rfl⟩
  · obtain ⟨count, hcount, hsame⟩ := hsound.drawn place id ⟨_, hrequest, hid⟩
    exact ⟨count, Nat.le_add_right_of_le hcount, hsame⟩
  · refine ⟨exchange.drawn + 1, ?_, ?_⟩
    · have hone : draws (Sum.inl ⟨schema, record⟩ : Payload ⊕ μ) = 1 := draws_of_none hnone
      omega
    · rw [hsound.last_eq, TransactionCounter.add_succ]

theorem send (hgraph : schema.graph.Coherent) (hsound : Sound schema first exchange)
    (place : Nat) : Sound schema first (exchange.send place) := by
  unfold Exchange.send
  cases hrequest : exchange.requests[place]? with
  | none => exact hsound
  | some request =>
      obtain ⟨record, rfl⟩ := hsound.payload request (List.mem_of_getElem? hrequest)
      obtain ⟨id, hbears, hid⟩ :=
        exists_bears_tryPack schema exchange.client record
      dsimp only
      have hown := (hasId_packed_iff hrequest hbears).mpr (.inl ⟨rfl, rfl⟩)
      have hkeeps : ∀ number other, HasId exchange.requests number other → HasId
          (exchange.requests.set place (exchange.client.tryPack (.inl ⟨schema, record⟩)).message)
          number other :=
        fun number other hold => hasId_packed hrequest hbears hold
      refine ⟨knows_tryPack hsound.client _, hsound.server, hsound.last_eq_tryPack _, ?_, ?_, ?_, ?_,
        ?_, ?_, ?_, ?_, ?_⟩
      · intro other hother
        rcases List.mem_or_eq_of_mem_set hother with hother | rfl
        · exact hsound.payload other hother
        · obtain ⟨packed, hpacked, -⟩ := hbears
          exact ⟨packed, hpacked⟩
      · intro number other hnumber
        rcases (hasId_packed_iff hrequest hbears).mp hnumber with ⟨-, rfl⟩ | ⟨-, hold⟩
        · exact hsound.exists_count hrequest hid
        · obtain ⟨count, hcount, hsame⟩ := hsound.drawn number other hold
          exact ⟨count, Nat.le_add_right_of_le hcount, hsame⟩
      · intro hdrawn one two other hone htwo
        have hdistinct := hsound.distinct (Nat.lt_of_le_of_lt (Nat.le_add_right _ _) hdrawn)
        rcases (hasId_packed_iff hrequest hbears).mp hone with ⟨rfl, rfl⟩ | ⟨-, hone'⟩
        · rcases (hasId_packed_iff hrequest hbears).mp htwo with ⟨rfl, -⟩ | ⟨-, htwo'⟩
          · rfl
          · exact (hsound.eq_of_hasId hrequest hid hdrawn htwo').symm
        · rcases (hasId_packed_iff hrequest hbears).mp htwo with ⟨rfl, rfl⟩ | ⟨-, htwo'⟩
          · exact hsound.eq_of_hasId hrequest hid hdrawn hone'
          · exact hdistinct one two other hone' htwo'
      · exact (hsound.sent.mono hkeeps).append
          (tracks_packets hown fun bytes hpacked => hbears.carries hgraph hpacked)
      · exact hsound.received.mono hkeeps
      · exact hsound.drafts.mono hkeeps
      · exact hsound.answers.mono hkeeps
      · exact hsound.returned.mono hkeeps
      · exact hsound.arrived.mono hkeeps

theorem receive (hgraph : schema.graph.Coherent) (hsound : Sound schema first exchange)
    (place : Nat) : Sound schema first (exchange.receive place) := by
  unfold Exchange.receive
  cases hentry : exchange.sent[place]? with
  | none => exact hsound
  | some entry =>
      obtain ⟨number, bytes⟩ := entry
      obtain ⟨id, hid, hcarries⟩ := hsound.sent.of_getElem? hentry
      have hunpacked := tracks_deliveries hid fun message hunpacked =>
        hcarries.bears hgraph hsound.server hunpacked
      exact { hsound with received := hsound.received.append hunpacked }

theorem respond (hsound : Sound schema first exchange) (place : Nat) :
    Sound schema first (exchange.respond place) := by
  unfold Exchange.respond
  split
  next number request hentry =>
    split
    next draft hrespond =>
      obtain ⟨id, hid, record, hsame, htransaction⟩ := hsound.received.of_getElem? hentry
      rw [Sum.inl.injEq] at hsame
      subst hsame
      have hdraft := Record.transaction_of_respond hrespond
      refine { hsound with drafts := hsound.drafts.append fun entry hentry => ?_ }
      rw [List.mem_singleton.mp hentry]
      exact ⟨id, hid, rfl, hdraft.trans htransaction⟩
    next => exact hsound
  next => exact hsound

theorem amend (hsound : Sound schema first exchange) (place : Nat)
    {change : Schema → Draft → Except ConstructionError Draft}
    (hchange : ∀ schema draft changed, change schema draft = .ok changed →
      changed.record.transaction = draft.record.transaction) :
    Sound schema first (exchange.amend place change) := by
  unfold Exchange.amend
  cases hentry : exchange.drafts[place]? with
  | none => exact hsound
  | some entry =>
      obtain ⟨number, own, draft⟩ := entry
      obtain ⟨id, hid, hown, htransaction⟩ := hsound.drafts.of_getElem? hentry
      dsimp only at hown htransaction ⊢
      split
      next changed hchanged =>
        have hsame := hchange own draft changed hchanged
        exact { hsound with
          drafts := hsound.drafts.set place hid ⟨hown, hsame.trans htransaction⟩ }
      next => exact hsound

theorem finish (hsound : Sound schema first exchange) (place : Nat) :
    Sound schema first (exchange.finish place) := by
  unfold Exchange.finish
  cases hentry : exchange.drafts[place]? with
  | none => exact hsound
  | some entry =>
      obtain ⟨number, own, draft⟩ := entry
      obtain ⟨id, hid, hown, htransaction⟩ := hsound.drafts.of_getElem? hentry
      dsimp only at hown htransaction ⊢
      subst hown
      split
      next record hfinish =>
        rw [Draft.record_of_finish hfinish] at htransaction
        refine { hsound with answers := hsound.answers.append fun entry hentry => ?_ }
        rw [List.mem_singleton.mp hentry]
        exact ⟨id, hid, record, rfl, htransaction⟩
      next => exact hsound

/-- An answer has the id of its request, so that no other is handed out for it. -/
theorem tryPack_answer (hsound : Sound schema first exchange) {place number : Nat}
    {answer : Payload ⊕ μ} (hentry : exchange.answers[place]? = some (number, answer)) :
    (exchange.server.tryPack answer).registry = exchange.server ∧
      (exchange.server.tryPack answer).message = answer := by
  obtain ⟨id, -, hbears⟩ := hsound.answers.of_getElem? hentry
  exact tryPack_of_some hbears.transaction_eq

theorem reply (hgraph : schema.graph.Coherent) (hsound : Sound schema first exchange)
    (place : Nat) : Sound schema first (exchange.reply place) := by
  unfold Exchange.reply
  cases hentry : exchange.answers[place]? with
  | none => exact hsound
  | some entry =>
      obtain ⟨number, answer⟩ := entry
      obtain ⟨id, hid, hbears⟩ := hsound.answers.of_getElem? hentry
      obtain ⟨hregistry, hmessage⟩ := hsound.tryPack_answer hentry
      have hpacked : Bears schema (exchange.server.tryPack answer).message id := by
        rw [hmessage]
        exact hbears
      exact { hsound with
        server := knows_tryPack hsound.server answer
        answers := hsound.answers.set place hid hpacked
        returned := hsound.returned.append
          (tracks_packets hid fun bytes hbytes => hpacked.carries hgraph hbytes) }

theorem serveOther (hsound : Sound schema first exchange) (message : Payload ⊕ μ) :
    Sound schema first (exchange.serveOther message) :=
  { hsound with server := knows_tryPack hsound.server message }

theorem arrive (hgraph : schema.graph.Coherent) (hsound : Sound schema first exchange)
    (place : Nat) : Sound schema first (exchange.arrive place) := by
  unfold Exchange.arrive
  cases hentry : exchange.returned[place]? with
  | none => exact hsound
  | some entry =>
      obtain ⟨number, bytes⟩ := entry
      obtain ⟨id, hid, hcarries⟩ := hsound.returned.of_getElem? hentry
      have hunpacked := tracks_deliveries hid fun message hunpacked =>
        hcarries.bears hgraph hsound.client hunpacked
      exact { hsound with arrived := hsound.arrived.append hunpacked }

theorem step (hgraph : schema.graph.Coherent) (hsound : Sound schema first exchange)
    (event : Event μ) : Sound schema first (exchange.step schema event) := by
  cases event with
  | build request => exact hsound.build request
  | send place => exact hsound.send hgraph place
  | sendOther message => exact hsound.sendOther message
  | receive place => exact hsound.receive hgraph place
  | respond place => exact hsound.respond place
  | fill place field value =>
      exact hsound.amend place fun _ _ _ hset => Draft.transaction_of_set hset
  | fillEnum place field name =>
      refine hsound.amend place fun _ _ _ hset => ?_
      obtain ⟨ordinal, hset⟩ := Draft.exists_set_of_setEnum hset
      exact Draft.transaction_of_set hset
  | finish place => exact hsound.finish place
  | reply place => exact hsound.reply hgraph place
  | serveOther message => exact hsound.serveOther message
  | arrive place => exact hsound.arrive hgraph place

theorem run (hgraph : schema.graph.Coherent) (hsound : Sound schema first exchange)
    (events : List (Event μ)) : Sound schema first (exchange.run schema events) := by
  induction events generalizing exchange with
  | nil => exact hsound
  | cons event rest ih => exact ih (hsound.step hgraph event)

end Sound

theorem Sound.hasId_step {first : UInt32} {exchange : Exchange μ}
    (hsound : Sound schema first exchange) (event : Event μ) {number : Nat} {id : UInt32}
    (hid : HasId exchange.requests number id) :
    HasId (exchange.step schema event).requests number id := by
  cases event with
  | build request => exact hasId_append_left hid
  | send place =>
      rw [Exchange.step, Exchange.send]
      cases hrequest : exchange.requests[place]? with
      | none => exact hid
      | some request =>
          obtain ⟨record, rfl⟩ := hsound.payload request (List.mem_of_getElem? hrequest)
          obtain ⟨own, hbears, -⟩ :=
            exists_bears_tryPack schema exchange.client record
          exact hasId_packed hrequest hbears hid
  | sendOther message => exact hid
  | receive place =>
      rw [Exchange.step, requests_receive]
      exact hid
  | respond place =>
      rw [Exchange.step, requests_respond]
      exact hid
  | fill place field value =>
      rw [Exchange.step, requests_amend]
      exact hid
  | fillEnum place field name =>
      rw [Exchange.step, requests_amend]
      exact hid
  | finish place =>
      rw [Exchange.step, requests_finish]
      exact hid
  | reply place =>
      rw [Exchange.step, requests_reply]
      exact hid
  | serveOther message => exact hid
  | arrive place =>
      rw [Exchange.step, requests_arrive]
      exact hid

theorem Sound.hasId_run (hgraph : schema.graph.Coherent) {first : UInt32} {exchange : Exchange μ}
    (hsound : Sound schema first exchange) (events : List (Event μ)) {number : Nat} {id : UInt32}
    (hid : HasId exchange.requests number id) :
    HasId (exchange.run schema events).requests number id := by
  induction events generalizing exchange with
  | nil => exact hid
  | cons event rest ih => exact ih (hsound.step hgraph event) (hsound.hasId_step event hid)

/-! ## Responses match requests -/

/-- How requests, responses and transaction ids belong together at some time. -/
structure Correlated (schema : Schema) (exchange : Exchange μ) : Prop where
  /-- No two requests have one transaction id. -/
  distinct : ∀ one two id, HasId exchange.requests one id → HasId exchange.requests two id →
    one = two
  /-- A request that was packed has the transaction id that its bytes carry. -/
  carries : ∀ number bytes, (number, bytes) ∈ exchange.sent →
    ∃ id, HasId exchange.requests number id ∧ Carries schema bytes id
  /-- A response has the transaction id of the request it answers, and of no other request. -/
  answers : ∀ number response, (number, response) ∈ exchange.arrived →
    ∃ id, Message.transaction? response = some id ∧ HasId exchange.requests number id ∧
      ∀ other, HasId exchange.requests other id → other = number
  /-- A request keeps its transaction id whatever happens later. -/
  keeps : ∀ events number id, HasId exchange.requests number id →
    HasId (exchange.run schema events).requests number id
  /-- Whatever has a transaction id is packed with it again. -/
  reuses : ∀ message id, Message.transaction? message = some id →
    (exchange.client.tryPack message).message = message ∧
      (exchange.client.tryPack message).registry = exchange.client
  /-- The server hands out no transaction id for an answer. -/
  stands : ∀ place, (exchange.reply place).server = exchange.server

/-- Responses match requests by their transaction ids, as long as the client has handed out fewer
than all 32-bit numbers: whatever the counters of the two parties are at the start, and whatever
they make, pack and unpack in which order. -/
theorem correlated_run {documents : List Document}
    (hcompile : Graph.compile documents = .ok schema.graph)
    {client server : Registry (Payload ⊕ μ)} (hclient : client.Knows schema)
    (hserver : server.Knows schema) (events : List (Event μ))
    (hdrawn : ((start client server).run schema events).drawn < UInt32.size) :
    Correlated schema ((start client server).run schema events) := by
  have hgraph := Graph.coherent_of_compile hcompile
  have hsound := (Sound.start hclient hserver).run hgraph events
  generalize (start client server).run schema events = exchange at hdrawn hsound
  have hdistinct := hsound.distinct hdrawn
  constructor
  · exact hdistinct
  · exact fun number bytes hsent => hsound.sent (number, bytes) hsent
  · intro number response harrived
    obtain ⟨id, hid, hbears⟩ := hsound.arrived (number, response) harrived
    exact ⟨id, hbears.transaction_eq, hid, fun other hother => hdistinct other number id hother hid⟩
  · exact fun later number id hid => hsound.hasId_run hgraph later hid
  · intro message id hid
    exact (tryPack_of_some hid).symm
  · intro place
    unfold Exchange.reply
    cases hentry : exchange.answers[place]? with
    | none => rfl
    | some entry => exact (hsound.tryPack_answer hentry).1

end Exchange

/-! ## Two requests answered out of order -/

namespace Sample

def pingDocuments : List Document :=
  [⟨"net", .object [
    ("ping", .array [.object [("?note", .string "string")], .object [("?echo", .string "string")]]),
    ("tick", .array [.object []])]⟩]

def pingSchema : Schema := schemaOf 4 pingDocuments

theorem compile_pingDocuments : Graph.compile pingDocuments = .ok pingSchema.graph :=
  compile_schemaOf 4 (by decide +kernel)

/-- A party that has handed out some ids. -/
def party (last : UInt32) : Registry (Payload ⊕ Payload) :=
  (Registry.register ⟨.empty, ⟨last⟩, false⟩
    ((Payload.all pingSchema).map fun entry => (entry.1, Sum.inl entry.2))).1

def tick : Payload ⊕ Payload := .inl ⟨pingSchema, .empty pingSchema ⟨2⟩⟩

/-- The second request is sent first and again later, the first one is answered first, and the
answers arrive the other way round. -/
def pingEvents : List (Exchange.Event Payload) :=
  [.build (.empty pingSchema ⟨1⟩), .build (.empty pingSchema ⟨1⟩), .sendOther tick, .send 1, .send 0,
    .send 1, .receive 1, .receive 0, .serveOther tick, .respond 0, .respond 1,
    .fill 0 "echo" (.text "a"), .finish 0, .finish 1, .reply 1, .reply 0, .arrive 0, .arrive 1]

def pinged : Exchange Payload := (Exchange.start (party 5) (party 6)).run pingSchema pingEvents

theorem correlated_pinged :
    pinged.arrived.map (fun entry => (entry.1, Message.transaction? entry.2)) =
        [(1, some 7), (0, some 8)] ∧
      Exchange.Correlated pingSchema pinged := by
  have hknows : ∀ last, (party last).Knows pingSchema := fun last =>
    Registry.knows_register (Graph.coherent_of_compile compile_pingDocuments) _
  have hdrawn : pinged.drawn < UInt32.size := by decide +kernel
  exact ⟨by decide +kernel,
    Exchange.correlated_run compile_pingDocuments (hknows 5) (hknows 6) pingEvents hdrawn⟩

end Sample

end WireSchema
