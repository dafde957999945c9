import Qubit.Core.History
import Qubit.Ebpf.Capture

/-!
# From frames to the graph

What the loader sends on about a frame arrives at Core as an event. Core reads the same
addresses out of it that stand in the packet, when both machines are little-endian, so
the flows of the graph are those that Core records for captured frames: between the pod
that is cached for the source address and the destination of the host, with the method
and the path of the request line, each under the names given to its ends since.
-/

namespace Qubit.Ebpf

open ReprC (ByteOrder)

structure EbpfNetworkEventRequest where
  timestampNs : UInt64
  srcIp : UInt32
  dstIp : UInt32
  srcPort : UInt32
  dstPort : UInt32
  method : String
  path : String
  host : String

/-- The request of `record_ebpf_event` in the loader. -/
def EbpfNetworkEvent.request (event : EbpfNetworkEvent) : EbpfNetworkEventRequest where
  timestampNs := event.timestampNs
  srcIp := event.srcIp
  dstIp := event.dstIp
  srcPort := event.srcPort.toUInt32
  dstPort := event.dstPort.toUInt32
  method := event.method
  path := event.path
  host := event.host

/-- The event that Core makes of a request, with the fields that no decision reads. -/
structure ReceivedEvent extends EbpfNetworkEventInput where
  timestampNs : UInt64
  srcPort : UInt16
  dstPort : UInt16

/-- The event of `send_ebpf_network_event`. -/
def EbpfNetworkEventRequest.received (req : EbpfNetworkEventRequest) : ReceivedEvent where
  timestampNs := req.timestampNs
  srcIp := req.srcIp
  dstIp := req.dstIp
  srcPort := req.srcPort.toUInt16
  dstPort := req.dstPort.toUInt16
  method := req.method
  path := req.path
  host := req.host

/-- The event of the loader as Core has it. -/
def EbpfNetworkEvent.input (event : EbpfNetworkEvent) : EbpfNetworkEventInput :=
  event.request.received.toEbpfNetworkEventInput

/-! ## What Core is told of a frame -/

namespace SkBuffContext

variable (ctx : SkBuffContext)

def address (offset : ℕ) : Ipv4.Addr where
  first := ctx.byte offset
  second := ctx.byte (offset + 1)
  third := ctx.byte (offset + 2)
  fourth := ctx.byte (offset + 3)

def srcAddress : Ipv4.Addr :=
  ctx.address 26

def dstAddress : Ipv4.Addr :=
  ctx.address 30

variable {ctx}

theorem bytesAt_succ {offset count : ℕ} (within : offset < ctx.frame.length) :
    ctx.bytesAt offset (count + 1) = ctx.byte offset :: ctx.bytesAt (offset + 1) count := by
  rw [bytesAt, List.drop_eq_getElem_cons within, List.take_succ_cons, ← bytesAt, byte,
    List.getD_eq_getElem?_getD, List.getElem?_eq_getElem within, Option.getD_some]

/-- An address that is kept as it stands in the packet is printed with the packet's octets. -/
theorem ipStr_eq_iff {offset : ℕ} (within : offset + 4 ≤ ctx.frame.length) {ip : UInt32} :
    EbpfNetworkEventInput.ipStr ip = (ctx.address offset).toText ↔
      ByteOrder.little.encode 4 ip.toNat = ctx.bytesAt offset 4 := by
  have bytes : ctx.bytesAt offset 4 = [ctx.byte offset, ctx.byte (offset + 1),
      ctx.byte (offset + 2), ctx.byte (offset + 3)] := by
    rw [bytesAt_succ (by omega), bytesAt_succ (by omega), bytesAt_succ (by omega),
      bytesAt_one (by omega)]
  have kept {ip : UInt32} (encoded : ByteOrder.little.encode 4 ip.toNat = ctx.bytesAt offset 4) :
      EbpfNetworkEventInput.ipStr ip = (ctx.address offset).toText := by
    have number : ByteOrder.little.decode (ByteOrder.little.encode 4 ip.toNat) = ip.toNat :=
      ByteOrder.little.decode_encode ip.toNat_lt
    rw [encoded, bytes] at number
    exact congrArg Ipv4.Addr.toText (Ipv4.ofUInt32_swapBytes number.symm)
  constructor
  · intro printed
    have loaded :
        ByteOrder.little.encode 4
            (UInt32.ofNat (ByteOrder.little.decode (ctx.bytesAt offset 4))).toNat =
          ctx.bytesAt offset 4 :=
      encode_toNat_loaded within
    rw [← kept loaded] at printed
    rw [EbpfNetworkEventInput.ipStr_injective printed]
    exact loaded
  · exact kept

end SkBuffContext

/-- What Core is told of a frame: who calls whom, and what was read out of the payload. -/
structure Describes (ctx : SkBuffContext) (input : EbpfNetworkEventInput) : Prop where
  captured : ctx.IsCaptured
  srcIpStr : input.srcIpStr = ctx.srcAddress.toText
  dstIpStr : input.dstIpStr = ctx.dstAddress.toText
  spaceless : ' ' ∉ input.method.toList
  requestLine : ∃ behind,
    ctx.payload.take commonMaxPayload = utf8Bytes input.method ++ space :: behind ∧
      input.path = (fromUtf8 (behind.takeWhile fun byte => !(byte == space))).getD ""
  host : input.host = (hostOf (ctx.payload.take commonMaxPayload)).getD ""

/-- Core is told of a frame on a little-endian machine what describes it, and of no other frame. -/
theorem input_capture_eq_some_iff {ctx : SkBuffContext} {now : UInt64} {trailing : List UInt8}
    {input : EbpfNetworkEventInput} :
    (capture .little ctx now trailing).map EbpfNetworkEvent.input = some input ↔
      Describes ctx input := by
  rw [Option.map_eq_some_iff]
  constructor
  · rintro ⟨sent, sent_eq, rfl⟩
    rcases capture_eq_some_iff.mp sent_eq with ⟨captured, reads, addressed, -⟩
    have addresses := captured.addresses
    exact
      { captured
        srcIpStr := (SkBuffContext.ipStr_eq_iff (by omega)).mpr addressed.srcIp
        dstIpStr := (SkBuffContext.ipStr_eq_iff (by omega)).mpr addressed.dstIp
        spaceless := reads.spaceless
        requestLine := reads.requestLine
        host := reads.host }
  · intro describes
    have captured := describes.captured
    have addresses := captured.addresses
    rcases describes.requestLine with ⟨behind, requestLine, path⟩
    refine ⟨⟨now, input.srcIp, input.dstIp, (ctx.capturedEvent .little now).srcPort,
      (ctx.capturedEvent .little now).dstPort, input.method, input.path, input.host⟩, ?_, rfl⟩
    have output : tryHttpFilter .little ctx now =
        .ok (some (ctx.capturedEvent .little now)) :=
      tryHttpFilter_eq_some_iff.mpr ⟨captured, rfl⟩
    have captures := captures_of_tryHttpFilter output
    rw [capture_eq_some_iff]
    exact ⟨captured, ⟨captured.named requestLine, describes.spaceless, ⟨behind, requestLine, path⟩,
      describes.host⟩, ⟨(SkBuffContext.ipStr_eq_iff (by omega)).mp describes.srcIpStr,
        (SkBuffContext.ipStr_eq_iff (by omega)).mp describes.dstIpStr, captures.srcPort,
        captures.dstPort⟩, rfl⟩

/-! ## What arrives at Core -/

/-- A request of the cluster's agent: anything but an event. -/
structure AgentRequest where
  request : Request
  noEvent : ∀ input, request ≠ .sendEbpfNetworkEvent input

/-- A frame, which goes through the filter and the loader, or a request of the agent. -/
inductive Arrival where
  | frame (ctx : SkBuffContext) (now : UInt64) (trailing : List UInt8)
  | agent (sent : AgentRequest)

namespace Arrival

def requests : Arrival → List Request
  | .frame ctx now trailing =>
      ((capture .little ctx now trailing).map fun sent =>
        .sendEbpfNetworkEvent sent.input).toList
  | .agent sent => [sent.request]

def operations (arrival : Arrival) : List Operation :=
  operationsOf arrival.requests

end Arrival

def requestsOf (arrivals : List Arrival) : List Request :=
  arrivals.flatMap Arrival.requests

/-- The flow that is recorded for an arrival. -/
def recordedFor? (state : CoreState) : Arrival → Option Flow
  | .frame ctx now trailing => do
      let sent ← capture .little ctx now trailing
      state.recorded? (.ebpfEvent sent.input)
  | .agent _ => none

theorem recordedFor?_frame {state : CoreState} {ctx : SkBuffContext} {now : UInt64}
    {trailing : List UInt8} {flow : Flow} :
    flow ∈ recordedFor? state (.frame ctx now trailing) ↔
      ∃ input, Describes ctx input ∧ flow ∈ state.recorded? (.ebpfEvent input) := by
  simp only [← @input_capture_eq_some_iff ctx now trailing, recordedFor?]
  cases capture .little ctx now trailing <;> simp

theorem operations_frame (ctx : SkBuffContext) (now : UInt64) (trailing : List UInt8) :
    Arrival.operations (.frame ctx now trailing) =
      ((capture .little ctx now trailing).map fun sent =>
        Operation.ebpfEvent sent.input).toList := by
  rw [Arrival.operations, Arrival.requests]
  cases capture .little ctx now trailing <;> rfl

theorem recorded?_agent {state : CoreState} {sent : AgentRequest} {operation : Operation}
    (operationMem : operation ∈ Arrival.operations (.agent sent)) :
    state.recorded? operation = none := by
  cases operation with
  | ebpfEvent input =>
      simp only [Arrival.operations, Arrival.requests, operationsOf, List.flatMap_cons,
        List.flatMap_nil, List.append_nil, Request.mem_operations_iff] at operationMem
      exact absurd operationMem (sent.noEvent input)
  | _ => rfl

/-- The step lemma: after an arrival the graph has its flows under their new names, and one more. -/
theorem stores_arrive_iff {state : CoreState} (view : state.IsView) {arrival : Arrival}
    {flow : Flow} :
    (arrival.operations.foldl CoreState.apply state).topology.Stores flow ↔
      (∃ old, state.topology.Stores old ∧ old.renamedBy arrival.operations = flow) ∨
        flow ∈ recordedFor? state arrival := by
  rw [Run.stored_iff CoreState.apply CoreState.IsView
    (fun state flow => state.topology.Stores flow) CoreState.carry CoreState.recorded?
    (fun _ operation view => view.apply operation) (fun _ _ _ view => view.stores_apply_iff) view]
  simp only [CoreState.carried_carry]
  apply or_congr_right
  constructor
  · rintro ⟨before, operation, after, split, new, recorded, rfl⟩
    have operationMem : operation ∈ arrival.operations := by
      rw [split]
      exact List.mem_append_right _ List.mem_cons_self
    cases arrival with
    | frame ctx now trailing =>
        rw [operations_frame] at split
        rw [recordedFor?]
        cases sent_eq : capture .little ctx now trailing with
        | none => simp [sent_eq] at split
        | some sent =>
            rw [sent_eq, Option.map_some, Option.toList_some, List.cons_eq_append_iff] at split
            rcases split with ⟨rfl, same⟩ | ⟨front, -, same⟩
            · obtain ⟨rfl, rfl⟩ := List.cons.inj same
              exact recorded
            · simp at same
    | agent sent =>
        rw [recorded?_agent operationMem] at recorded
        cases recorded
  · intro recorded
    cases arrival with
    | frame ctx now trailing =>
        rw [recordedFor?] at recorded
        rcases Option.bind_eq_some_iff.mp recorded with ⟨sent, sent_eq, recorded⟩
        refine ⟨[], .ebpfEvent sent.input, [], ?_, flow, recorded, rfl⟩
        rw [operations_frame, sent_eq]
        rfl
    | agent sent => cases recorded

theorem renamedBy_append (first second : List Operation) (flow : Flow) :
    flow.renamedBy (first ++ second) = (flow.renamedBy first).renamedBy second := by
  rw [← CoreState.carried_carry, ← CoreState.carried_carry, ← CoreState.carried_carry,
    Run.carried, List.foldl_append]
  rfl

theorem carried_renamedBy (arrivals : List Arrival) (flow : Flow) :
    Run.carried (fun arrival flow => flow.renamedBy (Arrival.operations arrival)) arrivals flow =
      flow.renamedBy (operationsOf (requestsOf arrivals)) := by
  induction arrivals generalizing flow with
  | nil => rfl
  | cons first rest ih =>
      have split : operationsOf (requestsOf (first :: rest)) =
          first.operations ++ operationsOf (requestsOf rest) := by
        simp [operationsOf, requestsOf, Arrival.operations]
      rw [Run.carried, List.foldl_cons, ← Run.carried, ih, split, renamedBy_append]

theorem run_requestsOf (state : CoreState) (arrivals : List Arrival) :
    state.run (requestsOf arrivals) =
      arrivals.foldl
        (fun state arrival => arrival.operations.foldl CoreState.apply state) state := by
  simp only [CoreState.run_eq_foldl, operationsOf, requestsOf, Arrival.operations,
    List.foldl_flatMap]

theorem stores_requestsOf_iff {arrivals : List Arrival} {flow : Flow} :
    (CoreState.empty.run (requestsOf arrivals)).topology.Stores flow ↔
      ∃ before arrival after, arrivals = before ++ arrival :: after ∧
        ∃ new ∈ recordedFor? (CoreState.empty.run (requestsOf before)) arrival,
          new.renamedBy (operationsOf (requestsOf after)) = flow := by
  have initially : CoreState.empty.IsView := CoreState.isView_run []
  have nothing (flow : Flow) : ¬CoreState.empty.topology.Stores flow := by
    rintro (⟨node, stored⟩ | ⟨node, stored⟩) <;> cases stored
  rw [run_requestsOf, Run.stored_iff _ CoreState.IsView
    (fun state flow => state.topology.Stores flow)
    (fun arrival flow => flow.renamedBy (Arrival.operations arrival)) recordedFor?
    (fun _ arrival view => view.foldl arrival.operations)
    (fun _ _ _ view => stores_arrive_iff view) initially]
  simp only [carried_renamedBy, ← run_requestsOf, nothing, false_and, exists_false, false_or]

/--
The flows of the graph are those of captured frames: each was recorded when its frame arrived, as
what Core is told of the frame, and has the names that the requests after it gave to its ends.
-/
theorem stores_arrivals_iff (arrivals : List Arrival) (flow : Flow) :
    (CoreState.empty.run (requestsOf arrivals)).topology.Stores flow ↔
      ∃ before ctx now trailing after, arrivals = before ++ .frame ctx now trailing :: after ∧
        ∃ input, Describes ctx input ∧
          ∃ new ∈ (CoreState.empty.run (requestsOf before)).recorded? (.ebpfEvent input),
            new.renamedBy (operationsOf (requestsOf after)) = flow := by
  rw [stores_requestsOf_iff]
  constructor
  · rintro ⟨before, arrival, after, split, new, recorded, same⟩
    cases arrival with
    | frame ctx now trailing =>
        rcases recordedFor?_frame.mp recorded with ⟨input, describes, recorded⟩
        exact ⟨before, ctx, now, trailing, after, split, input, describes, new, recorded, same⟩
    | agent sent => cases recorded
  · rintro ⟨before, ctx, now, trailing, after, split, input, describes, new, recorded, same⟩
    exact ⟨before, .frame ctx now trailing, after, split, new,
      recordedFor?_frame.mpr ⟨input, describes, recorded⟩, same⟩

/-! ## A request on its way to the graph -/

theorem take_requestText {method path : String} (rest : List UInt8)
    (fits : (utf8Bytes method).length + 1 + (utf8Bytes path).length ≤ commonMaxPayload) :
    (TcpPayloadEvent.requestText method path rest).take commonMaxPayload =
      utf8Bytes method ++ space :: (utf8Bytes path ++ (space :: rest).take
        (commonMaxPayload - ((utf8Bytes method).length + 1 + (utf8Bytes path).length))) := by
  have room : commonMaxPayload = (utf8Bytes method).length + ((utf8Bytes path).length +
      (commonMaxPayload - ((utf8Bytes method).length + 1 + (utf8Bytes path).length)) + 1) := by
    omega
  rw [TcpPayloadEvent.requestText]
  conv_lhs => rw [room]
  rw [List.take_length_add_append, List.take_succ_cons, List.take_length_add_append]

theorem describes_of_requestText {ctx : SkBuffContext} (captured : ctx.IsCaptured)
    {method path : String} {rest : List UInt8}
    (payload : ctx.payload = TcpPayloadEvent.requestText method path rest)
    (methodSpaceless : ' ' ∉ method.toList) (pathSpaceless : ' ' ∉ path.toList)
    (fits : (utf8Bytes method).length + 1 + (utf8Bytes path).length ≤ commonMaxPayload) :
    ∃ input, Describes ctx input ∧ input.method = method ∧ input.path = path := by
  have addresses := captured.addresses
  have spaceless := TcpPayloadEvent.space_notMem_utf8Bytes pathSpaceless
  have kept : ∀ byte ∈ utf8Bytes path, (!(byte == space)) = true := by
    simpa using List.takeWhile_eq_self_iff.mp (TcpPayloadEvent.takeWhile_space spaceless)
  refine ⟨⟨(ctx.capturedEvent .little 0).srcIp, (ctx.capturedEvent .little 0).dstIp, method, path,
    (hostOf (ctx.payload.take commonMaxPayload)).getD ""⟩, ?_, rfl, rfl⟩
  exact
    { captured
      srcIpStr := (SkBuffContext.ipStr_eq_iff (by omega)).mpr
        (SkBuffContext.encode_toNat_loaded (by omega))
      dstIpStr := (SkBuffContext.ipStr_eq_iff (by omega)).mpr
        (SkBuffContext.encode_toNat_loaded (by omega))
      spaceless := methodSpaceless
      requestLine := by
        refine ⟨_, by rw [payload, take_requestText rest fits], ?_⟩
        rw [List.takeWhile_append_of_pos kept]
        cases commonMaxPayload - ((utf8Bytes method).length + 1 + (utf8Bytes path).length) with
        | zero => simp [fromUtf8_utf8Bytes]
        | succ count => simp [fromUtf8_utf8Bytes]
      host := rfl }

theorem operations_of_describes {ctx : SkBuffContext} {input : EbpfNetworkEventInput}
    (describes : Describes ctx input) (now : UInt64) (trailing : List UInt8) :
    Arrival.operations (.frame ctx now trailing) = [.ebpfEvent input] := by
  have told : (capture .little ctx now trailing).map EbpfNetworkEvent.input = some input :=
    input_capture_eq_some_iff.mpr describes
  rcases Option.map_eq_some_iff.mp told with ⟨sent, sent_eq, rfl⟩
  rw [operations_frame, sent_eq]
  rfl

/--
A request in a captured frame that fits into the loader's event, from a pod that is cached and not
for a health check, has its key seen by Core, and if the key is new its flow is in the graph for
good, under the names that its ends are given.
-/
theorem request_reaches_graph (before after : List Arrival) (ctx : SkBuffContext) (now : UInt64)
    (trailing : List UInt8) (method path : String) (rest : List UInt8) (info : PodInfo)
    (captured : ctx.IsCaptured)
    (payload : ctx.payload = TcpPayloadEvent.requestText method path rest)
    (methodSpaceless : ' ' ∉ method.toList) (pathSpaceless : ' ' ∉ path.toList)
    (fits : (utf8Bytes method).length + 1 + (utf8Bytes path).length ≤ commonMaxPayload)
    (noHealthCheck : ¬Text.Contains "/health" path)
    (cached : (CoreState.empty.run (requestsOf before)).podCache.lookup ctx.srcAddress.toText =
      some info)
    (named : info.applicationName ≠ "") :
    let state := CoreState.empty.run (requestsOf before)
    let arrivals := before ++ .frame ctx now trailing :: after
    ∃ input, Describes ctx input ∧ input.method = method ∧ input.path = path ∧
      state.eventKey input info ∈ (CoreState.empty.run (requestsOf arrivals)).seenEdges ∧
      (state.eventKey input info ∉ state.seenEdges →
        (CoreState.empty.run (requestsOf arrivals)).topology.Stores
          ((state.eventFlow input info).renamedBy (operationsOf (requestsOf after)))) := by
  intro state arrivals
  rcases describes_of_requestText captured payload methodSpaceless pathSpaceless fits with
    ⟨input, describes, methodIs, pathIs⟩
  have observed : state.observed? input = some info := by
    rw [CoreState.observed?_eq_some, pathIs, describes.srcIpStr]
    exact ⟨noHealthCheck, cached, named⟩
  refine ⟨input, describes, methodIs, pathIs, ?_, ?_⟩
  · rw [run_requestsOf, List.foldl_append, List.foldl_cons, ← run_requestsOf, ← run_requestsOf,
      operations_of_describes describes, CoreState.run_eq_foldl _ (requestsOf after)]
    exact CoreState.seenEdges_subset_foldl _ _ (CoreState.eventKey_mem_seenEdges observed)
  · intro new
    rw [stores_requestsOf_iff]
    refine ⟨before, .frame ctx now trailing, after, rfl, _, ?_, rfl⟩
    rw [recordedFor?_frame]
    refine ⟨input, describes, ?_⟩
    rw [CoreState.recorded?, observed]
    exact if_neg new

/-- The pod that sends the short request is announced. -/
def announcedClient : List Arrival :=
  [.agent ⟨.sendPodEvent ⟨"10.0.0.1", "default", 0, "web", "web", "ClusterIP"⟩, by
    rintro input ⟨⟩⟩]

theorem request_reaches_graph_shortRequest :
    let info : PodInfo := ⟨"default", "web", "web", "ClusterIP"⟩
    let state := CoreState.empty.run (requestsOf announcedClient)
    let arrivals := announcedClient ++ [.frame shortRequest 7 []]
    ∃ input, Describes shortRequest input ∧ input.method = "GET" ∧ input.path = "/aaaaaaaa" ∧
      state.eventKey input info ∈ (CoreState.empty.run (requestsOf arrivals)).seenEdges ∧
      (state.eventKey input info ∉ state.seenEdges →
        (CoreState.empty.run (requestsOf arrivals)).topology.Stores
          ((state.eventFlow input info).renamedBy (operationsOf (requestsOf [])))) :=
  request_reaches_graph announcedClient [] shortRequest 7 [] "GET" "/aaaaaaaa"
    (utf8Bytes "HTTP/1.1\r\n\r\n") ⟨"default", "web", "web", "ClusterIP"⟩ (by decide) (by decide)
    (by decide) (by decide) (by decide) (by decide) (by decide +kernel) (by decide)

end Qubit.Ebpf
