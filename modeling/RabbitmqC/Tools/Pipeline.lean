import RabbitmqC.Tools.Publish

/-!
# From one tool to another

The messages of `amqp-publish` are relayed to `amqp-consume`, in frames that may be cut in
other places, and its children are given what was published. A header definition without
`:` keeps `amqp-publish` from sending more than a method.
-/

set_option autoImplicit false

namespace RabbitmqC

open Effect

/-! ## Headers -/

namespace PublishOptions

/-- Every header definition has a name of up to 255 octets in front of its `:`, and there are
not too many of them for a table. -/
structure NamedHeaders (options : PublishOptions) : Prop where
  named : ∀ definition ∈ options.headers, ∃ key value,
    splitHeader definition = some (key, value) ∧ key ≠ [] ∧ key.length ≤ 255
  few : options.headers.length ≤ maxEntries

section Headers

variable {options : PublishOptions} {fields : List (List UInt8 × List UInt8)}
  {holds : Component → Prop}

theorem components_headerEntries (values : ∀ value, holds (.value (.utf8 value)))
    (keys : ∀ field ∈ fields, holds (.key field.1)) :
    ∀ component ∈ tableComponents (fields.map headerEntry), holds component := by
  induction fields with
  | nil => simp [tableComponents]
  | cons field fields ih =>
      obtain ⟨first, others⟩ := List.forall_mem_cons.mp keys
      intro component member
      rw [List.map_cons, tableComponents, List.mem_append] at member
      rcases member with own | later
      · rcases List.mem_cons.mp own with rfl | own
        · exact first
        · rw [List.mem_singleton.mp own]
          exact values field.2
      · exact ih others component later

/-- Without definitions that are skipped there are entries for all. -/
theorem headerTable_of_named (named : options.NamedHeaders) :
    headerTable options.headers = (options.headers.filterMap splitHeader).map headerEntry := by
  have all : (options.headers.filterMap splitHeader).length = options.headers.length := by
    refine List.filterMap_length_eq_length.mpr fun definition member => ?_
    obtain ⟨key, value, splits, _⟩ := named.named definition member
    rw [splits]
    rfl
  simp [headerTable, all]

theorem every_headerTable (named : options.NamedHeaders)
    (table : ∀ entries, entries.length ≤ maxEntries → holds (.value (.table entries)))
    (values : ∀ value, holds (.value (.utf8 value)))
    (keys : ∀ key, key ≠ [] → key.length ≤ 255 → holds (.key key)) :
    Table.Every holds (headerTable options.headers) := by
  intro component member
  rw [headerTable_of_named named, FieldValue.components] at member
  rcases List.mem_cons.mp member with rfl | member
  · refine table _ (Nat.le_trans ?_ named.few)
    rw [List.length_map]
    exact List.length_filterMap_le _ _
  · refine components_headerEntries values (fun field inside => ?_) component member
    obtain ⟨definition, given, splits⟩ := List.mem_filterMap.mp inside
    obtain ⟨key, value, splits', some, short⟩ := named.named definition given
    cases splits.symm.trans splits'
    exact keys _ some short

theorem withinClass_properties (options : PublishOptions) : options.properties.WithinClass := by
  have all (contentType contentEncoding replyTo headers : Bool) :
      (deliveryModeFlag ||| (if contentType then contentTypeFlag else 0) |||
        (if contentEncoding then contentEncodingFlag else 0) |||
        (if replyTo then replyToFlag else 0) ||| (if headers then headersFlag else 0)) &&&
          definedFlags (classProperties amqpBasicClass) =
        (deliveryModeFlag ||| (if contentType then contentTypeFlag else 0) |||
          (if contentEncoding then contentEncodingFlag else 0) |||
          (if replyTo then replyToFlag else 0) ||| (if headers then headersFlag else 0)) := by
    revert contentType contentEncoding replyTo headers
    decide
  show options.flags &&& _ = options.flags
  unfold flags
  simpa using all options.contentType.isSome options.contentEncoding.isSome
    options.replyTo.isSome (decide (options.headers ≠ []))

theorem short_properties (named : options.NamedHeaders) : options.properties.Short := by
  refine ⟨fun _ _ => trivial, fun _ _ => trivial, fun table present => ?_, ?_⟩
  · obtain rfl : headerTable options.headers = table := by
      split at present
      · exact Option.some.inj present
      · cases present
    exact every_headerTable named (fun _ few => ⟨trivial, few⟩) (fun _ => ⟨trivial, trivial⟩)
      fun _ _ short => ⟨short, trivial⟩
  · repeat' first | exact trivial | constructor | intro

theorem namedKeys_properties (named : options.NamedHeaders) : options.properties.NamedKeys := by
  refine ⟨fun _ _ => trivial, fun _ _ => trivial, fun table present => ?_, ?_⟩
  · obtain rfl : headerTable options.headers = table := by
      split at present
      · exact Option.some.inj present
      · cases present
    exact every_headerTable named (fun _ _ => trivial) (fun _ => trivial) fun _ some _ => some
  · repeat' first | exact trivial | constructor | intro

theorem sound_publication (named : options.NamedHeaders) (body : List UInt8) :
    (options.publication body).Sound :=
  ⟨options.withinClass_properties, short_properties named, namedKeys_properties named⟩

end Headers

end PublishOptions

/-! ## What a publish keeps -/

section Keeping

variable {message : Publication} {fuel limit : Nat} {world after : World}

/-- The outbound buffer keeps its size. -/
abbrev KeepsRoom : World → World → Prop := Unchanged fun world => world.outbound.size

theorem keepsRoom_of_inward {before after : World} (inward : Inward before after) :
    KeepsRoom before after :=
  congrArg Buffer.size (Prod.mk.inj inward).2

theorem sendFrameInner_room (frame : Frame) (flags : SendFlags) (deadline : UInt64) :
    Moves KeepsRoom (amqpSendFrameInner frame flags deadline fuel) := by
  refine (encodeOutbound_size frame).bind fun encoded => ?_
  cases encoded with
  | error status => exact .pure
  | ok encoded =>
      refine Moves.bind (.modify fun _ => rfl) fun _ => ?_
      exact (buffered_sendEncoded deadline encoded).mono fun _ _ => congrArg Buffer.size

theorem publishBody_room (channel : UInt16) (usable : Nat) (body : List UInt8) :
    Moves KeepsRoom (publishBody channel usable fuel body) := by
  induction fuel generalizing body with
  | zero => exact .throw
  | succ fuel ih =>
      unfold publishBody
      refine .ite (fun _ => .pure) fun _ => ?_
      split
      refine (sendFrameInner_room _ _ _).bind fun sent => ?_
      cases sent with
      | error status => exact .pure
      | ok _ => exact ih _

theorem content_room : Moves KeepsRoom (message.content fuel) := by
  refine Moves.bind .get fun world => (sendFrameInner_room _ _ _).bind fun sent => ?_
  cases sent with
  | error status => exact .pure
  | ok _ =>
      refine (sendFrameInner_room _ _ _).bind fun sent => ?_
      cases sent with
      | error status => exact .pure
      | ok _ => exact publishBody_room _ _ _

/-- A connection with frames and a buffer of `limit` octets. -/
structure Ready (limit : Nat) (world : World) : Prop where
  fitted : Fitted world
  size : world.outbound.size = limit

theorem Ready.publish (ready : Ready limit world)
    (published : message.publish fuel world = .ok (.ok ()) after) : Ready limit after := by
  obtain ⟨before, sends, inward, _⟩ := content_of_publish published
  have room : after.outbound.size = world.outbound.size :=
    (content_room.ok sends).trans (keepsRoom_of_inward inward)
  have keeps : Keeps (fun state => state.settings = world.settings) (message.publish fuel) :=
    callRule_settings.basicPublish _ _ _ _ _ _ _
  have frameMax : after.reader.frameMax = world.reader.frameMax :=
    congrArg (·.2.1) (keeps.ok rfl published)
  refine ⟨?_, room.trans ready.size⟩
  unfold Fitted
  rw [frameMax, room]
  exact ready.fitted

end Keeping

/-! ## What is sent -/

/-- The body of a message was cut into fragments that fit, and its frames arrive. -/
structure SentContent (options : PublishOptions) (limit : Nat) (body : List UInt8)
    (fragments : List (List UInt8)) : Prop where
  whole : fragments.flatten = body
  sizes : ∀ fragment ∈ fragments, 1 ≤ fragment.length ∧ fragment.length ≤ limit - 8
  arrive : List.Forall₂ (Arrives limit)
    (((options.publication body).contentFrames fragments).map Frame.octets)
    ((options.publication body).arrivedFrames fragments)

/-- The frames of a message on the wire. -/
def PublishOptions.wireFrames (options : PublishOptions) (body : List UInt8)
    (fragments : List (List UInt8)) : List (List UInt8) :=
  (options.publication body).methodFrame.octets ::
    ((options.publication body).contentFrames fragments).map Frame.octets

/-- The content of each message as it arrives. -/
def PublishOptions.arrivals (options : PublishOptions) (bodies : List (List UInt8))
    (cuts : List (List (List UInt8))) : List (List Frame) :=
  List.zipWith (fun body fragments => (options.publication body).arrivedFrames fragments) bodies cuts

/-- Messages that were sent in full, one after the other and nothing between them. -/
structure SentAll (options : PublishOptions) (limit : Nat) (before after : World)
    (bodies : List (List UInt8)) (cuts : List (List (List UInt8))) : Prop where
  contents : List.Forall₂ (SentContent options limit) bodies cuts
  sent : SentFrames before after (List.zipWith options.wireFrames bodies cuts).flatten

section Sent

variable {options : PublishOptions} {limit fuel : Nat} {world after : World} {body : List UInt8}
  {bodies : List (List UInt8)}

theorem sentContent_of_publish (ready : Ready limit world) (large : 20 ≤ limit)
    (named : options.NamedHeaders)
    (published : (options.publication body).publish fuel world = .ok (.ok ()) after) :
    ∃ fragments, SentContent options limit body fragments ∧
      SentFrames world after (options.wireFrames body fragments) := by
  obtain ⟨before, sends, inward, sameMax⟩ := content_of_publish published
  have sameSize : before.outbound.size = limit := (keepsRoom_of_inward inward).trans ready.size
  have sameWire : before.wire = world.wire := congrArg (·.1.1) inward
  have sameLimit : before.reader.frameMax.toInt = limit := by
    rw [sameMax, ← ready.size]
    exact ready.fitted
  obtain ⟨fragments, sent, _, arrive⟩ :=
    content_sends sameSize sameLimit large (PublishOptions.sound_publication named body) sends
  obtain ⟨submitted, accepted⟩ := sent.sent
  rw [sameWire] at submitted accepted
  exact ⟨fragments, ⟨sent.whole, sent.sizes, arrive⟩, submitted, accepted⟩

theorem sentAll_of_publishedAll (ready : Ready limit world) (large : 20 ≤ limit)
    (named : options.NamedHeaders) (published : PublishedAll options fuel world bodies after) :
    ∃ cuts, SentAll options limit world after bodies cuts := by
  induction published with
  | nil => exact ⟨[], .nil, sentFrames_nil⟩
  | cons first _ ih =>
      obtain ⟨fragments, content, sent⟩ := sentContent_of_publish ready large named first
      obtain ⟨cuts, contents, later⟩ := ih (ready.publish first)
      exact ⟨fragments :: cuts, .cons content contents, sent.append later⟩

end Sent

/-! ## What children are given -/

/-- What is written before the next child is started. -/
def inputBefore : List ToolEvent → List UInt8
  | [] => []
  | .started :: _ => []
  | .wrote octets :: events => octets ++ inputBefore events
  | _ :: events => inputBefore events

/-- What is written to each child. -/
def childInputs : List ToolEvent → List (List UInt8)
  | [] => []
  | .started :: events => inputBefore events :: childInputs events
  | _ :: events => childInputs events

section Children

variable {noAck : Bool} {message : IncomingMessage} {handled : List IncomingMessage}
  {events later : List ToolEvent} {blocks : List (List ToolEvent)}

theorem inputBefore_wrote (chunks : List (List UInt8)) (later : List ToolEvent) :
    inputBefore (chunks.map .wrote ++ later) = chunks.flatten ++ inputBefore later := by
  induction chunks with
  | nil => rfl
  | cons chunk chunks ih => simp [inputBefore, ih]

theorem childInputs_wrote (chunks : List (List UInt8)) (later : List ToolEvent) :
    childInputs (chunks.map .wrote ++ later) = childInputs later := by
  induction chunks with
  | nil => rfl
  | cons chunk chunks ih => exact ih

/-- The child of a message is given its body, and nothing of what is behind it. -/
theorem IncomingMessage.Handled.childInputs_append (handled : message.Handled noAck events)
    (fresh : inputBefore later = []) :
    childInputs (events ++ later) = message.fragments.flatten :: childInputs later ∧
      inputBefore (events ++ later) = [] := by
  obtain ⟨chunks, success, flatten, rfl⟩ := handled
  refine ⟨?_, rfl⟩
  have split : ToolEvent.started :: (chunks.map .wrote ++ .exited success ::
      if success && !noAck then [.acked message.deliveryTag] else []) ++ later =
        .started :: (chunks.map .wrote ++ (.exited success ::
          ((if success && !noAck then [.acked message.deliveryTag] else []) ++ later))) := by
    simp
  rw [split, childInputs, inputBefore_wrote, childInputs_wrote, flatten]
  split
  · simp [inputBefore, childInputs, fresh]
  · simp [inputBefore, childInputs, fresh]

theorem childInputs_blocks
    (all : List.Forall₂ (fun message => message.Handled noAck) handled blocks) :
    childInputs blocks.flatten = handled.map (fun message => message.fragments.flatten) ∧
      inputBefore blocks.flatten = [] := by
  induction all with
  | nil => exact ⟨rfl, rfl⟩
  | cons first _ ih =>
      obtain ⟨inputs, fresh⟩ := ih
      obtain ⟨own, begins⟩ := first.childInputs_append fresh
      refine ⟨?_, begins⟩
      rw [List.flatten_cons, own, inputs]
      rfl

theorem childInputs_requests (noAck : Bool) (count prefetchCount : Int) (later : List ToolEvent) :
    childInputs (requests noAck count prefetchCount ++ later) = childInputs later := by
  unfold requests
  split <;> split <;> rfl

/-- `do_consume` gives every child the body of its message. -/
theorem doConsume_childInputs {replies : ConsumeReplies} {count : Nat} {prefetchCount : Int}
    {stream : List StreamItem} {consumer : Tool}
    (returned : doConsume replies noAck count prefetchCount (consuming stream) =
      .ok () consumer) :
    childInputs consumer.trace =
      (messages (stream.take count)).map fun message => message.fragments.flatten := by
  rcases @doConsume_ends replies noAck count prefetchCount stream with
    ⟨_, halt, last, dies, _⟩ | ⟨_, ends⟩
  · cases dies.symm.trans returned
  · rw [returned] at ends
    cases ends with
    | returned _ _ trace handled =>
        rw [trace, childInputs_requests]
        exact (childInputs_blocks handled).1

end Children

/-! ## The way of a message -/

/-- A message that comes in has the content that these frames have, in fragments that may be
cut in other places. -/
def Forwards (frames : List Frame) (incoming : IncomingMessage) : Prop :=
  ∃ header bodies fragments, frames = header :: bodies ∧
    header.bodySize? = some incoming.size ∧ AreFragments bodies fragments ∧
    incoming.fragments.flatten = fragments.flatten

section Ways

variable {options : PublishOptions} {limit fuel : Nat} {body : List UInt8}
  {bodies fragments : List (List UInt8)} {cuts : List (List (List UInt8))}
  {incoming : IncomingMessage} {received : List IncomingMessage}

theorem areFragments_bodyFrames (channel : UInt16) (fragments : List (List UInt8)) :
    AreFragments (fragments.map (bodyFrame channel)) fragments := by
  unfold AreFragments
  rw [List.map_map]
  rfl

theorem flatten_of_forwards (content : SentContent options limit body fragments)
    (forwards : Forwards ((options.publication body).arrivedFrames fragments) incoming) :
    incoming.fragments.flatten = body := by
  obtain ⟨header, frames, others, split, _, areFragments, same⟩ := forwards
  obtain ⟨_, isFrames⟩ := List.cons.inj split
  rw [← isFrames] at areFragments
  have fragmented := areFragments_bodyFrames (options.publication body).channel fragments
  have isOthers : others = fragments :=
    List.map_injective_iff.mpr (Option.some_injective _) (areFragments.symm.trans fragmented)
  rw [same, isOthers, content.whole]

theorem flatten_of_allForwarded (contents : List.Forall₂ (SentContent options limit) bodies cuts)
    (forwarded : List.Forall₂ Forwards (options.arrivals bodies cuts) received) :
    received.map (fun message => message.fragments.flatten) = bodies := by
  induction contents generalizing received with
  | nil =>
      cases forwarded
      rfl
  | cons content _ ih =>
      cases forwarded with
      | cons first others => exact congrArg₂ List.cons (flatten_of_forwards content first) (ih others)

end Ways

/-- A connection with frames of 64 octets, whose socket takes whole frames. -/
def toolWorld : World :=
  { World.new
      { clock := []
        recvs := []
        sends := List.replicate 6 (.accepted 64)
        recvPolls := []
        sendPolls := []
        closes := []
        links := []
        memory := fun _ => grantingMemory } with
    reader.frameMax := 64
    outbound := ⟨List.replicate 64 0, by decide⟩ }

theorem ready_toolWorld : Ready 64 toolWorld := ⟨rfl, rfl⟩

def lineOptions : PublishOptions :=
  { routingKey := some [113], contentType := some [116], lineBuffered := true }

/-- Two lines, the second of which does not end in a newline. -/
def linePublisher : Publisher := ⟨toolWorld, { octets := [97, 10, 98, 99] }⟩

theorem length_redelivered : ([0] : List Int32).length = ((1 : Fin 9) : Nat) := rfl

/-- A message that comes in, cut into fragments. -/
def incomingOf (deliveryTag : UInt64) (size : UInt64) (fragments : List (List UInt8))
    (fills : FillsBody size.toNat fragments) : IncomingMessage where
  deliver := ⟨amqpFrameMethod, 1,
    .method amqpBasicDeliverMethod (some ([], deliveryTag, ⟨[0], length_redelivered⟩, [], [], ()))⟩
  header := ⟨amqpFrameHeader, 1, .properties amqpBasicClass size none ⟨0, 0⟩⟩
  bodies := fragments.map (bodyFrame 1)
  handling := .smooth
  deliveryTag
  size := size.toNat
  fragments
  isDeliver := rfl
  isHeader := rfl
  areFragments := areFragments_bodyFrames 1 fragments
  fills

theorem forwards_of_content {options : PublishOptions} {limit : Nat} {body : List UInt8}
    {fragments : List (List UInt8)} {incoming : IncomingMessage}
    (content : SentContent options limit body fragments)
    (size : (UInt64.ofNat body.length).toNat = incoming.size)
    (same : incoming.fragments.flatten = body) :
    Forwards ((options.publication body).arrivedFrames fragments) incoming :=
  ⟨_, _, fragments, rfl, congrArg some size, areFragments_bodyFrames _ fragments,
    same.trans content.whole.symm⟩

theorem fills_twoFrames : FillsBody (UInt64.toNat 2) [[97], [10]] :=
  ⟨by decide, by decide, by decide, by decide, rfl⟩

theorem fills_oneFrame : FillsBody (UInt64.toNat 2) [[98, 99]] := ⟨by decide, by decide, rfl⟩

/-- The first line comes in two frames, the second in one. -/
def lineStream : List StreamItem :=
  [.message (incomingOf 1 2 [[97], [10]] fills_twoFrames),
    .message (incomingOf 2 2 [[98, 99]] fills_oneFrame)]

/-- A header definition has no `:`. -/
def PublishOptions.SkipsHeader (options : PublishOptions) : Prop :=
  ∃ definition ∈ options.headers, PublishOptions.splitHeader definition = none

section Skipped

variable {options : PublishOptions} {limit fuel : Nat} {body : List UInt8} {world after : World}

open PublishOptions in
/-- The entry for it is left with zeros. -/
theorem zeroEntry_mem (skips : options.SkipsHeader) :
    zeroEntry ∈ headerTable options.headers := by
  obtain ⟨definition, member, none⟩ := skips
  have fewer : (options.headers.filterMap splitHeader).length < options.headers.length :=
    List.length_filterMap_lt_length_iff_exists.mpr ⟨definition, member, none⟩
  refine List.mem_append_right _ (List.mem_replicate.mpr ⟨?_, rfl⟩)
  rw [List.length_map]
  omega

theorem tableComponents_of_mem {entry : TableEntry} {entries : List TableEntry}
    {component : Component} (member : entry ∈ entries) (inside : component ∈ entry.components) :
    component ∈ tableComponents entries := by
  induction entries with
  | nil => cases member
  | cons first entries ih =>
      rw [tableComponents, List.mem_append]
      rcases List.mem_cons.mp member with rfl | member
      · exact .inl inside
      · exact .inr (ih member)

theorem not_known_headerTable (skips : options.SkipsHeader) :
    ¬ Table.Every Component.Known (PublishOptions.headerTable options.headers) := by
  intro known
  refine known (.value (.unknown ⟨0, by decide⟩)) ?_
  rw [FieldValue.components]
  refine List.mem_cons_of_mem _ (tableComponents_of_mem (zeroEntry_mem skips) ?_)
  exact List.mem_cons_of_mem _ List.mem_cons_self

theorem flagged_headers (some : options.headers ≠ []) :
    flagged options.flags ⟨13, .table⟩ = true := by
  have all (contentType contentEncoding replyTo : Bool) :
      flagged (PublishOptions.deliveryModeFlag |||
        (if contentType then PublishOptions.contentTypeFlag else 0) |||
        (if contentEncoding then PublishOptions.contentEncodingFlag else 0) |||
        (if replyTo then PublishOptions.replyToFlag else 0) ||| PublishOptions.headersFlag)
          ⟨13, .table⟩ = true := by
    revert contentType contentEncoding replyTo
    decide
  unfold PublishOptions.flags
  rw [if_pos some]
  exact all options.contentType.isSome options.contentEncoding.isSome options.replyTo.isSome

theorem encodeProperties_of_skipped (skips : options.SkipsHeader) {view : View}
    {mem written : Buffer} {count : Nat} :
    amqpEncodeProperties amqpBasicClass options.properties view mem ≠ .ok count written := by
  intro returned
  have some : options.headers ≠ [] := by
    obtain ⟨definition, member, _⟩ := skips
    exact List.ne_nil_of_mem member
  obtain ⟨_, _, _, contentType⟩ := bind_eq_ok.mp (fromStart_eq_ok.mp returned)
  obtain ⟨_, _, _, contentEncoding⟩ := bind_eq_ok.mp contentType
  obtain ⟨_, _, _, headers⟩ := bind_eq_ok.mp contentEncoding
  obtain ⟨_, _, table, _⟩ := bind_eq_ok.mp headers
  rw [if_pos some] at table
  unfold encodeProperty at table
  rw [show flagged options.properties.flags ⟨13, .table⟩ = true from flagged_headers some] at table
  exact not_known_headerTable skips (known_of_amqpEncodeTable table)

/-- Its content header cannot be encoded. -/
theorem headerFrame_unencoded (skips : options.SkipsHeader) (body : List UInt8) (world : World) :
    encoding? (options.publication body).headerFrame world = none := by
  unfold encoding?
  cases encodes : amqpFrameToBytes (options.publication body).headerFrame world.outbound.size
      world.outbound with
  | error failure outbound => rfl
  | ok count outbound =>
      obtain ⟨_, _, _, _, returned⟩ := properties_of_amqpFrameToBytes encodes
      exact absurd returned (encodeProperties_of_skipped skips)

/-- A frame is passed on if it can be encoded, whether or not it is sent. -/
theorem sendFrameInner_submits (frame : Frame) (flags : SendFlags) (deadline : UInt64) :
    submittedFrames (endState (amqpSendFrameInner frame flags deadline fuel world)).wire =
      submittedFrames world.wire ++ (encoding? frame world).toList := by
  cases isEncoded : encoding? frame world with
  | none =>
      rw [(sendFrameInner_unencoded isEncoded).1]
      exact (List.append_nil _).symm
  | some encoded =>
      obtain ⟨submitted, isWire, continues⟩ :=
        @sendFrameInner_encoded frame flags deadline fuel world encoded isEncoded
      obtain ⟨pieces, once⟩ := @exactlyOnce_of_submitted flags deadline fuel world encoded
        submitted isWire
      rw [continues, once.accepts]
      simp [submittedFrames]

theorem content_of_unsent {message : Publication}
    {result : EStateM.Result Stop World (Except Status Unit)}
    (isSent : amqpSendFrameInner message.methodFrame .more amqpTimeInfinite fuel world = result)
    (fails : ∀ after, result ≠ .ok (.ok ()) after) : message.content fuel world = result := by
  have methodSent : amqpSendMethodInner message.channel amqpBasicPublishMethod
      (basicPublishFields message.exchange message.routingKey message.mandatory message.immediate)
      .more amqpTimeInfinite fuel world = result := isSent
  unfold Publication.content publishContent
  rw [bind_of_ok (get_run world)]
  cases result with
  | error stop after => exact bind_of_error methodSent
  | ok value after =>
      cases value with
      | ok _ => exact absurd rfl (fails after)
      | error status => exact bind_of_ok methodSent

/-- Of such a message no more than the method is sent. -/
theorem content_of_skipped (skips : options.SkipsHeader) :
    submittedFrames (endState ((options.publication body).content fuel world)).wire =
        submittedFrames world.wire ++ (encoding? (options.publication body).methodFrame world).toList ∧
      ∀ after, (options.publication body).content fuel world ≠ .ok (.ok ()) after := by
  have submits := @sendFrameInner_submits fuel world (options.publication body).methodFrame .more
    amqpTimeInfinite
  by_cases isSent : ∃ between, amqpSendFrameInner (options.publication body).methodFrame .more
      amqpTimeInfinite fuel world = .ok (.ok ()) between
  · obtain ⟨between, isSent⟩ := isSent
    rw [isSent] at submits
    have refused := headerFrame_unencoded skips body between
    rw [content_of_sent isSent]
    generalize isResult : amqpSendFrameInner (options.publication body).headerFrame
      (if (options.publication body).body.length > 0 then .more else .none) amqpTimeInfinite fuel
      between = result
    have unencoded := @sendFrameInner_unencoded (options.publication body).headerFrame
      (if (options.publication body).body.length > 0 then .more else .none) amqpTimeInfinite fuel
      between refused
    rw [isResult] at unencoded
    rw [← submits]
    show submittedFrames (endState ((_ >>= _ : Call (Except Status Unit)) between)).wire = _ ∧ _
    cases result with
    | error stop after =>
        rw [bind_of_error isResult]
        exact ⟨congrArg submittedFrames unencoded.1, fun _ => by simp⟩
    | ok value after =>
        rw [bind_of_ok isResult]
        cases value with
        | ok _ => exact absurd rfl (unencoded.2 after)
        | error status => exact ⟨congrArg submittedFrames unencoded.1, fun _ => by simp⟩
  · have fails := fun after isOk => isSent ⟨after, isOk⟩
    rw [content_of_unsent rfl fails]
    exact ⟨submits, fails⟩

/-- A message whose header is skipped is not published. -/
theorem publish_of_skipped (skips : options.SkipsHeader) :
    (∃ before, before.outbound = world.outbound ∧
      ∃ sent : List (List UInt8), sent.Sublist
          (encoding? (options.publication body).methodFrame before).toList ∧
        submittedFrames (endState ((options.publication body).publish fuel world)).wire =
          submittedFrames world.wire ++ sent) ∧
      ∀ after, (options.publication body).publish fuel world ≠ .ok (.ok ()) after := by
  refine ⟨?_, fun after published => ?_⟩
  · have begun := publish_begun (options.publication body) fuel world
    generalize (options.publication body).publish fuel world = result at begun ⊢
    cases begun with
    | unsent inward =>
        refine ⟨world, rfl, [], List.nil_sublist _, ?_⟩
        rw [List.append_nil]
        exact congrArg submittedFrames (congrArg (·.1.1) inward)
    | @proceeds before inward =>
        refine ⟨before, congrArg (·.2) inward, _, List.Sublist.refl _, ?_⟩
        rw [(content_of_skipped skips).1]
        exact congrArg (submittedFrames · ++ _) (congrArg (·.1.1) inward)
  · obtain ⟨before, sends, _⟩ := content_of_publish published
    exact (content_of_skipped skips).2 after sends

/-- The only frame of a method is the one that it has on the wire. -/
theorem methodFrame_of_encoded {message : Publication} {before : World} {encoded : List UInt8}
    (size : before.outbound.size = limit) (large : 20 ≤ limit) (bounded : limit < 2 ^ 31)
    (isEncoded : encoding? message.methodFrame before = some encoded) :
    encoded = message.methodFrame.octets := by
  unfold encoding? at isEncoded
  cases encodes : amqpFrameToBytes message.methodFrame before.outbound.size before.outbound with
  | error failure outbound =>
      rw [encodes] at isEncoded
      cases isEncoded
  | ok count outbound =>
      rw [encodes] at isEncoded
      have octets := (conveyed_of_amqpFrameToBytes (size ▸ large) (size ▸ bounded)
        representable_methodFrame encodes).1
      exact (Option.some.inj isEncoded).symm.trans octets

theorem Ready.bounded (ready : Ready limit world) : limit < 2 ^ 31 := by
  have below := world.reader.frameMax.toInt_lt
  have fitted := ready.fitted
  unfold Fitted at fitted
  rw [ready.size] at fitted
  omega

end Skipped

/-- A header definition without `:` is said to be ignored, but `amqp-publish` succeeds with it
only when there is nothing to publish. Otherwise it sends no content: of the first message the
method at most, and of the others nothing. -/
theorem skipped_header_publishes_nothing {options : PublishOptions} {limit fuel : Nat}
    {publisher : Publisher} (ready : Ready limit publisher.world) (large : 20 ≤ limit)
    (small : publisher.stdin.octets.length < 2 ^ 63) (skips : options.SkipsHeader) :
    (∀ after, publishInput options fuel publisher = .ok () after →
      options.messages publisher.stdin = [] ∧ after.world = publisher.world) ∧
    ∃ sent, submittedFrames (endState (publishInput options fuel publisher)).world.wire =
        submittedFrames publisher.world.wire ++ sent ∧
      (sent = [] ∨ ∃ body, (options.messages publisher.stdin).head? = some body ∧
        sent = [(options.publication body).methodFrame.octets]) := by
  rcases @publishInput_ends options fuel publisher small with
    ⟨_, last, same, dies⟩ | ⟨_, ends⟩
  · refine ⟨fun after returned => ?_, [], ?_, .inl rfl⟩
    · cases dies.symm.trans returned
    · rw [dies, List.append_nil]
      exact congrArg (submittedFrames ∘ World.wire) same
  · cases isResult : publishInput options fuel publisher with
    | ok _ after =>
        rw [isResult] at ends
        cases ends with
        | returned published =>
            generalize options.messages publisher.stdin = bodies at published
            generalize isWorld : after.world = world at published
            cases published with
            | nil =>
                refine ⟨fun other returned => ?_, [], ?_, .inl rfl⟩
                · cases returned
                  exact ⟨rfl, isWorld⟩
                · rw [List.append_nil]
                  exact congrArg (submittedFrames ∘ World.wire) isWorld
            | cons first _ => exact absurd first ((publish_of_skipped skips).2 _)
    | error halt after =>
        rw [isResult] at ends
        refine ⟨fun other returned => ?_, ?_⟩
        · cases returned
        · cases ends with
          | @halted _ _ done later body middle split published fails isWorld =>
              cases published with
              | cons first _ => exact absurd first ((publish_of_skipped skips).2 _)
              | nil =>
                  obtain ⟨before, sameBuffer, sent, isPart, submitted⟩ :=
                    (@publish_of_skipped options fuel body publisher.world skips).1
                  refine ⟨sent, ?_, ?_⟩
                  · rw [← submitted]
                    exact congrArg (submittedFrames ∘ World.wire) isWorld
                  · cases isEncoded : encoding? (options.publication body).methodFrame before with
                    | none =>
                        rw [isEncoded] at isPart
                        exact .inl (List.sublist_nil.mp isPart)
                    | some encoded =>
                        rw [isEncoded] at isPart
                        have size : before.outbound.size = limit :=
                          (congrArg Buffer.size sameBuffer).trans ready.size
                        have isOctets := methodFrame_of_encoded size large ready.bounded isEncoded
                        rcases List.sublist_singleton.mp isPart with none | whole
                        · exact .inl none
                        · refine .inr ⟨body, ?_, whole.trans (congrArg ([·]) isOctets)⟩
                          rw [split]
                          rfl

/-- A body and a header definition in which the `:` is missing. -/
def skippingOptions : PublishOptions :=
  { routingKey := some [113], headers := [[107]], body := some [97] }

theorem skipped_header_publishes_nothing_body :
    (∀ after, publishInput skippingOptions 8 linePublisher ≠ .ok () after) ∧
      submittedFrames (endState (publishInput skippingOptions 8 linePublisher)).world.wire =
        [(skippingOptions.publication [97]).methodFrame.octets] := by
  obtain ⟨succeeds, sent, submitted, isSent⟩ := skipped_header_publishes_nothing
    (show Ready 64 linePublisher.world from ready_toolWorld) (by decide) (by decide)
    (show skippingOptions.SkipsHeader from ⟨[107], List.mem_cons_self, rfl⟩)
  have isMessages : skippingOptions.messages linePublisher.stdin = [[97]] := rfl
  rw [isMessages] at succeeds isSent
  constructor
  · intro after returned
    cases (succeeds after returned).1
  rcases isSent with rfl | ⟨body, isBody, rfl⟩
  · have one : (submittedFrames
        (endState (publishInput skippingOptions 8 linePublisher)).world.wire).length = 1 := by
      decide +kernel
    rw [submitted] at one
    cases one
  · cases isBody
    exact submitted

end RabbitmqC
