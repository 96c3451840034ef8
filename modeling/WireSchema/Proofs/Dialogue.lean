import WireSchema.Proofs.Exchange

/-!
# Responses begun early and late

A request has no transaction id before it is packed, and a response takes over what the request has
when the response is begun.  A response that is begun after the request was packed has the id of
the request, whatever else is packed before or in between.  A response that is begun earlier has no
id.  It draws one when it is packed, as any other message does, and this is never the id of the
request unless the ids were used up.
-/

namespace WireSchema

variable {μ : Type}

/-- The number in the second four bytes, where a payload has its transaction id. -/
def transactionOf (bytes : List UInt8) : UInt32 :=
  UInt32.ofNat (Wire.ofBigEndian ((bytes.drop 4).take 4))

theorem Carries.transactionOf_eq {schema : Schema} {bytes : List UInt8} {id : UInt32}
    (hcarries : Carries schema bytes id) : transactionOf bytes = id := by
  obtain ⟨wire, type, rest, -, rfl⟩ := hcarries
  have hid : (((headerBytes wire id ++ rest).drop 4).take 4) = Wire.bigEndian 4 id.toNat := by
    rw [headerBytes, List.append_assoc, List.drop_left' (Wire.length_bigEndian 4 _),
      List.take_left' (Wire.length_bigEndian 4 _)]
  rw [transactionOf, hid, Wire.ofBigEndian_bigEndian id.toNat_lt, UInt32.ofNat_toNat]

/-- A request, the responses to it, and the registry that packs them all.  A response is kept with
a mark that tells whether it was begun late: after the request was packed. -/
structure Dialogue (μ : Type) where
  registry : Registry (Payload ⊕ μ)
  /-- How many transaction ids the registry has handed out. -/
  drawn : Nat
  request : Payload ⊕ μ
  /-- Whether the request was packed, be it without success. -/
  opened : Bool
  drafts : List (Bool × Draft)
  responses : List (Bool × (Payload ⊕ μ))
  requestBytes : List (List UInt8)
  responseBytes : List (Bool × List UInt8)

namespace Dialogue

def start (schema : Schema) (registry : Registry (Payload ⊕ μ)) (request : Record) : Dialogue μ :=
  ⟨registry, 0, .inl ⟨schema, request⟩, false, [], [], [], []⟩

/-- The bytes of a packed message; none if it could not be packed. -/
def packets : Except Failure (List UInt8) → List (List UInt8)
  | .ok bytes => [bytes]
  | .error _ => []

theorem mem_packets_iff {result : Except Failure (List UInt8)} {bytes : List UInt8} :
    bytes ∈ packets result ↔ result = .ok bytes := by
  cases result with
  | error fault => simp [packets]
  | ok packed => simp [packets, eq_comm]

/-- What happens.  Any number of responses may be begun, changed, finished and packed, each at any
place of its list, and the request may be packed at any time and again. -/
inductive Event (μ : Type) where
  | packRequest
  | packOther (message : Payload ⊕ μ)
  | respond
  | fill (place : Nat) (field : String) (value : Value)
  | fillEnum (place : Nat) (field name : String)
  | finish (place : Nat)
  | packResponse (place : Nat)

def respond (dialogue : Dialogue μ) : Dialogue μ :=
  match dialogue.request with
  | .inl request =>
    match request.record.respond request.schema with
    | .ok draft =>
      { dialogue with drafts := dialogue.drafts ++ [(dialogue.opened, draft)] }
    | .error _ => dialogue
  | .inr _ => dialogue

/-- Changes a response under construction. -/
def amend (dialogue : Dialogue μ) (place : Nat)
    (change : Draft → Except ConstructionError Draft) : Dialogue μ :=
  match dialogue.drafts[place]? with
  | none => dialogue
  | some (late, draft) =>
    match change draft with
    | .ok changed => { dialogue with drafts := dialogue.drafts.set place (late, changed) }
    | .error _ => dialogue

def finish (schema : Schema) (dialogue : Dialogue μ) (place : Nat) : Dialogue μ :=
  match dialogue.drafts[place]? with
  | none => dialogue
  | some (late, draft) =>
    match draft.finish schema with
    | .ok record =>
      { dialogue with responses := dialogue.responses ++ [(late, .inl ⟨schema, record⟩)] }
    | .error _ => dialogue

variable [Message μ]

def packRequest (dialogue : Dialogue μ) : Dialogue μ :=
  let packed := dialogue.registry.tryPack dialogue.request
  { dialogue with
    registry := packed.registry
    drawn := dialogue.drawn + Exchange.draws dialogue.request
    request := packed.message
    opened := true
    requestBytes := dialogue.requestBytes ++ packets packed.result }

def packOther (dialogue : Dialogue μ) (message : Payload ⊕ μ) : Dialogue μ :=
  { dialogue with
    registry := (dialogue.registry.tryPack message).registry
    drawn := dialogue.drawn + Exchange.draws message }

def packResponse (dialogue : Dialogue μ) (place : Nat) : Dialogue μ :=
  match dialogue.responses[place]? with
  | none => dialogue
  | some (late, response) =>
    let packed := dialogue.registry.tryPack response
    { dialogue with
      registry := packed.registry
      drawn := dialogue.drawn + Exchange.draws response
      responses := dialogue.responses.set place (late, packed.message)
      responseBytes :=
        dialogue.responseBytes ++ (packets packed.result).map fun bytes => (late, bytes) }

def step (schema : Schema) (dialogue : Dialogue μ) : Event μ → Dialogue μ
  | .packRequest => dialogue.packRequest
  | .packOther message => dialogue.packOther message
  | .respond => dialogue.respond
  | .fill place field value => dialogue.amend place fun draft => draft.set schema field value
  | .fillEnum place field name => dialogue.amend place fun draft => draft.setEnum schema field name
  | .finish place => dialogue.finish schema place
  | .packResponse place => dialogue.packResponse place

def run (schema : Schema) (dialogue : Dialogue μ) (events : List (Event μ)) : Dialogue μ :=
  events.foldl (step schema) dialogue

/-! ## Ids of responses -/

/-- An id is among those handed out so far; before them `first` was handed out. -/
def Drawn (first : UInt32) (drawn : Nat) (id : UInt32) : Prop :=
  ∃ count ≤ drawn, id = first + UInt32.ofNat count

/-- What the id of a response has to do with the id of the request: a late one is the same, an early
one is another. -/
def Relates (first : UInt32) (drawn : Nat) (own : Option UInt32) (late : Bool)
    (transaction : Option UInt32) : Prop :=
  if late then transaction.isSome = true ∧ transaction = own
  else ∀ id, transaction = some id → Drawn first drawn id ∧ (drawn < UInt32.size → own ≠ some id)

section Relates

variable {first id : UInt32} {drawn later : Nat} {own changed transaction : Option UInt32}
  {late : Bool}

theorem Drawn.mono (hid : Drawn first drawn id) (hle : drawn ≤ later) : Drawn first later id := by
  obtain ⟨count, hcount, hsame⟩ := hid
  exact ⟨count, Nat.le_trans hcount hle, hsame⟩

theorem Drawn.ne_next (hid : Drawn first drawn id) (hlt : drawn < later)
    (hsize : later < UInt32.size) : id ≠ first + UInt32.ofNat later := by
  obtain ⟨count, hcount, rfl⟩ := hid
  intro hsame
  have hcounts := TransactionCounter.eq_of_add_eq (by omega) hsize hsame
  omega

/-- The id of the request stays as it is, or it is given later than those of early responses. -/
theorem Relates.mono (hrelates : Relates first drawn own late transaction) (hle : drawn ≤ later)
    (hown : changed = own ∨
      own = none ∧ drawn < later ∧ changed = some (first + UInt32.ofNat later)) :
    Relates first later changed late transaction := by
  cases late with
  | true =>
      obtain ⟨hsome, rfl⟩ := hrelates
      rcases hown with rfl | ⟨hnone, -⟩
      · exact ⟨hsome, rfl⟩
      · simp [hnone] at hsome
  | false =>
      intro id hid
      obtain ⟨hdrawn, hother⟩ := hrelates id hid
      refine ⟨hdrawn.mono hle, fun hsize => ?_⟩
      rcases hown with rfl | ⟨-, hlt, rfl⟩
      · exact hother (Nat.lt_of_le_of_lt hle hsize)
      · simpa using (hdrawn.ne_next hlt hsize).symm

/-- The next id that is handed out is not that of the request. -/
theorem relates_next (hown : ∀ id, own = some id → Drawn first drawn id) :
    Relates first (drawn + 1) own false (some (first + UInt32.ofNat (drawn + 1))) := by
  intro id hid
  rw [Option.some.injEq] at hid
  subst hid
  refine ⟨⟨drawn + 1, Nat.le_refl _, rfl⟩, fun hsize hsame => ?_⟩
  exact (hown _ hsame).ne_next (Nat.lt_succ_self drawn) hsize rfl

end Relates

/-- What holds at all times. -/
structure Sound (schema : Schema) (first : UInt32) (dialogue : Dialogue μ) : Prop where
  last_eq : dialogue.registry.transactions.last = first + UInt32.ofNat dialogue.drawn
  request : ∃ record, dialogue.request = .inl ⟨schema, record⟩
  opened_eq : dialogue.opened = (Message.transaction? dialogue.request).isSome
  drawn : ∀ id, Message.transaction? dialogue.request = some id → Drawn first dialogue.drawn id
  requestBytes : ∀ bytes ∈ dialogue.requestBytes, ∃ id,
    Message.transaction? dialogue.request = some id ∧ Carries schema bytes id
  drafts : ∀ entry ∈ dialogue.drafts,
    Relates first dialogue.drawn (Message.transaction? dialogue.request) entry.1
      entry.2.record.transaction
  responses : ∀ entry ∈ dialogue.responses, ∃ record, entry.2 = .inl ⟨schema, record⟩ ∧
    Relates first dialogue.drawn (Message.transaction? dialogue.request) entry.1
      record.transaction
  responseBytes : ∀ entry ∈ dialogue.responseBytes, ∃ id, Carries schema entry.2 id ∧
    Relates first dialogue.drawn (Message.transaction? dialogue.request) entry.1 (some id)

namespace Sound

variable {schema : Schema} {first : UInt32} {dialogue : Dialogue μ}

theorem start (schema : Schema) (registry : Registry (Payload ⊕ μ)) {request : Record}
    (hnone : request.transaction = none) :
    Sound schema registry.transactions.last (Dialogue.start schema registry request) := by
  have hfresh : Message.transaction? (Dialogue.start schema registry request).request = none :=
    hnone
  constructor
  · exact (UInt32.add_zero _).symm
  · exact ⟨request, rfl⟩
  · rw [hfresh]
    rfl
  · simp [hfresh]
  all_goals simp [Dialogue.start]

/-- The ids of responses are kept apart from that of the request while further ids are handed
out. -/
theorem later (hsound : Sound schema first dialogue) {registry : Registry (Payload ⊕ μ)}
    {request : Payload ⊕ μ} {drawn : Nat} {opened : Bool}
    (hlast : registry.transactions.last = first + UInt32.ofNat drawn)
    (hle : dialogue.drawn ≤ drawn)
    (hrequest : ∃ record, request = .inl ⟨schema, record⟩)
    (hopened : opened = (Message.transaction? request).isSome)
    (hown : Message.transaction? request = Message.transaction? dialogue.request ∨
      Message.transaction? dialogue.request = none ∧ dialogue.drawn < drawn ∧
        Message.transaction? request = some (first + UInt32.ofNat drawn)) :
    Sound schema first { dialogue with registry, drawn, request, opened } where
  last_eq := hlast
  request := hrequest
  opened_eq := hopened
  drawn id hid := by
    rcases hown with hsame | ⟨-, -, hnew⟩
    · exact (hsound.drawn id (hsame ▸ hid)).mono hle
    · rw [hnew, Option.some.injEq] at hid
      exact ⟨drawn, Nat.le_refl drawn, hid.symm⟩
  requestBytes bytes hbytes := by
    obtain ⟨id, hid, hcarries⟩ := hsound.requestBytes bytes hbytes
    rcases hown with hsame | ⟨hnone, -⟩
    · exact ⟨id, hsame.trans hid, hcarries⟩
    · simp [hnone] at hid
  drafts entry hentry := (hsound.drafts entry hentry).mono hle hown
  responses entry hentry := by
    obtain ⟨record, hrecord, hrelates⟩ := hsound.responses entry hentry
    exact ⟨record, hrecord, hrelates.mono hle hown⟩
  responseBytes entry hentry := by
    obtain ⟨id, hcarries, hrelates⟩ := hsound.responseBytes entry hentry
    exact ⟨id, hcarries, hrelates.mono hle hown⟩

theorem last_tryPack (hsound : Sound schema first dialogue) (message : Payload ⊕ μ) :
    (dialogue.registry.tryPack message).registry.transactions.last =
      first + UInt32.ofNat (dialogue.drawn + Exchange.draws message) := by
  rw [Exchange.last_tryPack, hsound.last_eq, UInt32.ofNat_add, UInt32.add_assoc]

/-- A payload is packed with its own id, or with the next one. -/
theorem exists_bears (hsound : Sound schema first dialogue) (record : Record) :
    ∃ id, Bears schema (dialogue.registry.tryPack (.inl ⟨schema, record⟩)).message id ∧
      (record.transaction = some id ∨
        record.transaction = none ∧
          Exchange.draws (Sum.inl ⟨schema, record⟩ : Payload ⊕ μ) = 1 ∧
          id = first + UInt32.ofNat (dialogue.drawn + 1)) := by
  obtain ⟨id, hbears, hid⟩ := Exchange.exists_bears_tryPack schema dialogue.registry record
  refine ⟨id, hbears, hid.imp_right ?_⟩
  rintro ⟨hnone, rfl⟩
  exact ⟨hnone, Exchange.draws_of_none hnone,
    by rw [hsound.last_eq, TransactionCounter.add_succ]⟩

theorem packOther (hsound : Sound schema first dialogue) (message : Payload ⊕ μ) :
    Sound schema first (dialogue.packOther message) :=
  hsound.later (hsound.last_tryPack message) (Nat.le_add_right _ _) hsound.request
    hsound.opened_eq (.inl rfl)

theorem packRequest (hgraph : schema.graph.Coherent) (hsound : Sound schema first dialogue) :
    Sound schema first dialogue.packRequest := by
  obtain ⟨record, hrecord⟩ := hsound.request
  obtain ⟨id, hbears, hid⟩ := hsound.exists_bears record
  have htransaction : Message.transaction? dialogue.request = record.transaction := by
    rw [hrecord]
    rfl
  rw [← htransaction, ← hrecord] at hid
  rw [← hrecord] at hbears
  have hown := hbears.transaction_eq
  have hmessage : ∃ packed, (dialogue.registry.tryPack dialogue.request).message =
      .inl ⟨schema, packed⟩ := by
    obtain ⟨packed, hpacked, -⟩ := hbears
    exact ⟨packed, hpacked⟩
  have hopened : true =
      (Message.transaction? (dialogue.registry.tryPack dialogue.request).message).isSome := by
    simp [hown]
  have hlater := hsound.later (hsound.last_tryPack dialogue.request) (Nat.le_add_right _ _)
    hmessage hopened ?_
  · refine { hlater with requestBytes := fun bytes hbytes => ?_ }
    rcases List.mem_append.mp hbytes with hbytes | hbytes
    · exact hlater.requestBytes bytes hbytes
    · exact ⟨id, hown, hbears.carries hgraph (mem_packets_iff.mp hbytes)⟩
  · rcases hid with hid | ⟨hnone, hdraws, rfl⟩
    · exact .inl (hown.trans hid.symm)
    · rw [hdraws]
      exact .inr ⟨hnone, Nat.lt_succ_self _, hown⟩

theorem packResponse (hgraph : schema.graph.Coherent) (hsound : Sound schema first dialogue)
    (place : Nat) : Sound schema first (dialogue.packResponse place) := by
  unfold Dialogue.packResponse
  cases hentry : dialogue.responses[place]? with
  | none => exact hsound
  | some entry =>
      obtain ⟨late, response⟩ := entry
      obtain ⟨record, hrecord, hrelates⟩ := hsound.responses _ (List.mem_of_getElem? hentry)
      dsimp only at hrecord hrelates ⊢
      subst hrecord
      obtain ⟨id, hbears, hid⟩ := hsound.exists_bears record
      have hlater := hsound.later (hsound.last_tryPack (.inl ⟨schema, record⟩))
        (Nat.le_add_right _ _) hsound.request hsound.opened_eq (.inl rfl)
      -- A late response has an id already, so that only early ones are given the next one.
      have hpacked : Relates first
          (dialogue.drawn + Exchange.draws (Sum.inl ⟨schema, record⟩ : Payload ⊕ μ))
          (Message.transaction? dialogue.request) late (some id) := by
        rcases hid with hid | ⟨hnone, hdraws, rfl⟩
        · rw [hid] at hrelates
          exact hrelates.mono (Nat.le_add_right _ _) (.inl rfl)
        · cases late with
          | true => simp [Relates, hnone] at hrelates
          | false =>
              rw [hdraws]
              exact relates_next hsound.drawn
      refine { hlater with responses := fun entry hentry => ?_
                           responseBytes := fun entry hentry => ?_ }
      · rcases List.mem_or_eq_of_mem_set hentry with hentry | rfl
        · exact hlater.responses entry hentry
        · obtain ⟨packed, hmessage, htransaction⟩ := hbears
          exact ⟨packed, hmessage, htransaction ▸ hpacked⟩
      · rcases List.mem_append.mp hentry with hentry | hentry
        · exact hlater.responseBytes entry hentry
        · obtain ⟨bytes, hbytes, rfl⟩ := List.mem_map.mp hentry
          exact ⟨id, hbears.carries hgraph (mem_packets_iff.mp hbytes), hpacked⟩

theorem respond (hsound : Sound schema first dialogue) : Sound schema first dialogue.respond := by
  unfold Dialogue.respond
  split
  next request hrequest =>
    have htransaction : Message.transaction? dialogue.request = request.record.transaction := by
      rw [hrequest]
      rfl
    split
    next draft hrespond =>
      refine { hsound with drafts := fun entry hentry => ?_ }
      rcases List.mem_append.mp hentry with hentry | hentry
      · exact hsound.drafts entry hentry
      · have hdraft := (Record.transaction_of_respond hrespond).trans htransaction.symm
        rw [List.mem_singleton.mp hentry]
        dsimp only
        rw [hdraft, hsound.opened_eq]
        cases hid : Message.transaction? dialogue.request with
        | none => simp [Relates]
        | some id => simp [Relates]
    next => exact hsound
  next => exact hsound

theorem amend (hsound : Sound schema first dialogue) (place : Nat)
    {change : Draft → Except ConstructionError Draft}
    (hchange : ∀ draft changed, change draft = .ok changed →
      changed.record.transaction = draft.record.transaction) :
    Sound schema first (dialogue.amend place change) := by
  unfold Dialogue.amend
  cases hentry : dialogue.drafts[place]? with
  | none => exact hsound
  | some entry =>
      obtain ⟨late, draft⟩ := entry
      have hrelates := hsound.drafts _ (List.mem_of_getElem? hentry)
      dsimp only at hrelates ⊢
      split
      next changed hchanged =>
        refine { hsound with drafts := fun entry hentry => ?_ }
        rcases List.mem_or_eq_of_mem_set hentry with hentry | rfl
        · exact hsound.drafts entry hentry
        · rw [← hchange draft changed hchanged] at hrelates
          exact hrelates
      next => exact hsound

theorem finish (hsound : Sound schema first dialogue) (place : Nat) :
    Sound schema first (dialogue.finish schema place) := by
  unfold Dialogue.finish
  cases hentry : dialogue.drafts[place]? with
  | none => exact hsound
  | some entry =>
      obtain ⟨late, draft⟩ := entry
      have hrelates := hsound.drafts _ (List.mem_of_getElem? hentry)
      dsimp only at hrelates ⊢
      split
      next record hfinish =>
        rw [Draft.record_of_finish hfinish] at hrelates
        refine { hsound with responses := fun entry hentry => ?_ }
        rcases List.mem_append.mp hentry with hentry | hentry
        · exact hsound.responses entry hentry
        · rw [List.mem_singleton.mp hentry]
          exact ⟨record, rfl, hrelates⟩
      next => exact hsound

theorem step (hgraph : schema.graph.Coherent) (hsound : Sound schema first dialogue)
    (event : Event μ) : Sound schema first (dialogue.step schema event) := by
  cases event with
  | packRequest => exact hsound.packRequest hgraph
  | packOther message => exact hsound.packOther message
  | respond => exact hsound.respond
  | fill place field value =>
      exact hsound.amend place fun draft changed hset => Draft.transaction_of_set hset
  | fillEnum place field name =>
      refine hsound.amend place fun draft changed hset => ?_
      obtain ⟨ordinal, hset⟩ := Draft.exists_set_of_setEnum hset
      exact Draft.transaction_of_set hset
  | finish place => exact hsound.finish place
  | packResponse place => exact hsound.packResponse hgraph place

theorem run (hgraph : schema.graph.Coherent) (hsound : Sound schema first dialogue)
    (events : List (Event μ)) : Sound schema first (dialogue.run schema events) := by
  induction events generalizing dialogue with
  | nil => exact hsound
  | cons event rest ih => exact ih (hsound.step hgraph event)

end Sound

/-- Of all responses to a request, those that were begun after the request was packed have its
transaction id in their bytes, and those that were begun before have another one, unless the ids
were used up.  The order in which everything else happens does not matter. -/
theorem transactionOf_run {documents : List Document} {schema : Schema}
    (hcompile : Graph.compile documents = .ok schema.graph) (registry : Registry (Payload ⊕ μ))
    {request : Record} (hnone : request.transaction = none) (events : List (Event μ))
    {bytes : List UInt8}
    (hrequest : bytes ∈ ((start schema registry request).run schema events).requestBytes)
    {late : Bool} {answer : List UInt8}
    (hresponse :
      (late, answer) ∈ ((start schema registry request).run schema events).responseBytes) :
    (late = true → transactionOf answer = transactionOf bytes) ∧
      (late = false → ((start schema registry request).run schema events).drawn < UInt32.size →
        transactionOf answer ≠ transactionOf bytes) := by
  have hgraph := Graph.coherent_of_compile hcompile
  have hsound := (Sound.start schema registry hnone).run hgraph events
  obtain ⟨id, hid, hcarries⟩ := hsound.requestBytes bytes hrequest
  obtain ⟨other, hcarries', hrelates⟩ := hsound.responseBytes (late, answer) hresponse
  rw [hcarries.transactionOf_eq, hcarries'.transactionOf_eq]
  rw [hid] at hrelates
  constructor
  · rintro rfl
    exact Option.some.inj hrelates.2
  · rintro rfl hsize rfl
    exact (hrelates other rfl).2 hsize rfl

end Dialogue

/-! ## Two responses to one request -/

namespace Sample

/-- A response is begun before the request is packed and another one afterwards; a message is packed
in between, and the responses are packed the other way round. -/
def earlyAndLate : List (Dialogue.Event Payload) :=
  [.respond, .packRequest, .respond, .packOther tick, .finish 0, .finish 1, .packResponse 1,
    .packResponse 0]

def answered : Dialogue Payload :=
  (Dialogue.start pingSchema (party 0) (.empty pingSchema ⟨1⟩)).run pingSchema earlyAndLate

/-- The request has the id 1, as the late response has.  The early one has the id 3. -/
theorem transactionOf_answered :
    ∃ request late early, answered.requestBytes = [request] ∧
      answered.responseBytes = [(true, late), (false, early)] ∧
      transactionOf request = 1 ∧ transactionOf late = transactionOf request ∧
      transactionOf early = 3 ∧ transactionOf early ≠ transactionOf request := by
  let request := answered.requestBytes.headD []
  let late := (answered.responseBytes.headD (true, [])).2
  let early := (answered.responseBytes.getD 1 (true, [])).2
  have hrequest : request ∈ answered.requestBytes := by decide +kernel
  have hlate : (true, late) ∈ answered.responseBytes := by decide +kernel
  have hearly : (false, early) ∈ answered.responseBytes := by decide +kernel
  have hdrawn : answered.drawn < UInt32.size := by decide +kernel
  have hsame := Dialogue.transactionOf_run compile_pingDocuments (party 0) rfl earlyAndLate
    hrequest hlate
  have hother := Dialogue.transactionOf_run compile_pingDocuments (party 0) rfl earlyAndLate
    hrequest hearly
  exact ⟨request, late, early, by decide +kernel, by decide +kernel, by decide +kernel,
    hsame.1 rfl, by decide +kernel, hother.2 rfl hdrawn⟩

end Sample

end WireSchema
