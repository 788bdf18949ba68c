import Btfind.Library.Transition
import Btfind.Metadata.Greeting
import Btfind.Wire.ExtendedHandshake

/-!
# The window of requests

A download as a machine that requests a piece or takes a message. The machine takes the steps of
the loops, in their order, and what holds in every state that it reaches holds in every
execution: the requests in flight are the requested pieces, and no arithmetic leaves `u32`.
A timeout or a write that fails only stops a run in a state that it has reached.
-/

namespace Btfind

open Blocks FetchM Transition

/-! ## Lengths of pieces -/

/-- `metadata_piece_len` stays in `u32`. -/
def LenInRange (totalSize totalPieces pieceIdx : Nat) : Prop :=
  pieceIdx + 1 ≤ u32Max ∧
    (pieceIdx + 1 = totalPieces → pieceIdx * blockSize ≤ u32Max ∧ pieceIdx * blockSize ≤ totalSize)

theorem last_piece {size n : Nat} (h : metadataPieceCount size = n + 1) :
    n * blockSize < size ∧ size ≤ (n + 1) * blockSize := by
  unfold metadataPieceCount blockSize at *
  omega

theorem lenInRange {size i : Nat} (hsize : size ≤ 64 * 1024 * 1024)
    (hi : i < metadataPieceCount size) : LenInRange size (metadataPieceCount size) i := by
  constructor
  · unfold metadataPieceCount blockSize at hi
    unfold u32Max
    omega
  · intro hlast
    have hbound := (last_piece hlast.symm).1
    unfold u32Max
    omega

/-- The lengths of all the pieces sum up to the size. -/
theorem sum_metadataPieceLen (size : Nat) :
    ((List.range (metadataPieceCount size)).map
      (metadataPieceLen size (metadataPieceCount size))).sum = size := by
  cases hcount : metadataPieceCount size with
  | zero =>
    have hzero : size = 0 := by
      unfold metadataPieceCount blockSize at hcount
      omega
    rw [hzero]
    rfl
  | succ n =>
    have hbounds := last_piece hcount
    -- Every piece but the last one is a whole block.
    have hwhole :
        (List.range n).map (metadataPieceLen size (n + 1)) = List.replicate n blockSize := by
      rw [List.eq_replicate_iff]
      refine ⟨by rw [List.length_map, List.length_range], fun len hlen => ?_⟩
      obtain ⟨i, hi, rfl⟩ := List.mem_map.mp hlen
      have hlt := List.mem_range.mp hi
      rw [metadataPieceLen, if_neg (by omega)]
    rw [List.range_succ, List.map_append, hwhole, List.map_singleton, List.sum_append,
      List.sum_replicate_nat, List.sum_singleton, metadataPieceLen, if_pos rfl]
    omega

/-! ## The machine -/

inductive FetchEvent
  | request
  | message (message : WireMessage)

/-- One step between the points where the loops test their conditions. -/
inductive FetchStep (serde : Serde) (s : Session) :
    Download × Conn → FetchEvent → Download × Conn → Prop
  | request {d : Download} {c : Conn} (hwants : d.Wants s) :
      FetchStep serde s (d, c) .request
        (d.request, { c with written := c.written ++ [requestBytes serde s d.nextToRequest] })
  | message {d d' : Download} {c c' : Conn} {message : WireMessage} (hfull : ¬d.Wants s)
      (hmissing : d.received < s.totalPieces)
      (hread : readNextFrame .metadataRead c = (.ok (some message), c'))
      (hreceive : receiveMessage serde s d message = .ok d') :
      FetchStep serde s (d, c) (.message message) (d', c')

/-- How the loop over the frames ends, once no more requests fit. -/
inductive FetchEnds (serde : Serde) (s : Session) :
    Download × Conn → Except MetadataFetchError Download × Conn → Prop
  | complete {d : Download} {c : Conn} (hfull : ¬d.Wants s)
      (hcomplete : s.totalPieces ≤ d.received) : FetchEnds serde s (d, c) (.ok d, c)
  | noMessage {d : Download} {c c' : Conn} (hfull : ¬d.Wants s)
      (hmissing : d.received < s.totalPieces)
      (hread : readNextFrame .metadataRead c = (.ok none, c')) : FetchEnds serde s (d, c) (.ok d, c')
  | readFailed {d : Download} {c c' : Conn} {e : MetadataFetchError} (hfull : ¬d.Wants s)
      (hmissing : d.received < s.totalPieces)
      (hread : readNextFrame .metadataRead c = (.error e, c')) :
      FetchEnds serde s (d, c) (.error e, c')
  | refused {d : Download} {c c' : Conn} {message : WireMessage} {e : MetadataFetchError}
      (hfull : ¬d.Wants s) (hmissing : d.received < s.totalPieces)
      (hread : readNextFrame .metadataRead c = (.ok (some message), c'))
      (hreceive : receiveMessage serde s d message = .error e) :
      FetchEnds serde s (d, c) (.error e, c')

variable {serde : Serde} {s : Session} {d d' : Download} {c c' start : Conn}

/-! ## The invariant -/

/-- What holds wherever a loop tests its condition. -/
structure Window (serde : Serde) (s : Session) (start : Conn) (d : Download) (c : Conn) : Prop where
  inFlight : d.inFlight = d.requested.length
  distinct : d.requested.Nodup
  window : d.inFlight ≤ s.maxOutstanding
  asked : ∀ i ∈ d.requested, i < d.nextToRequest
  next : d.nextToRequest ≤ s.totalPieces
  /-- Each piece is requested once, in order. -/
  written : c.written = start.written ++ (List.range d.nextToRequest).map (requestBytes serde s)
  received : d.received = filled d.pieces
  slots : d.pieces.length = s.totalPieces

theorem Window.init (serde : Serde) (s : Session) (c : Conn) :
    Window serde s c (Download.start s) c where
  inFlight := rfl
  distinct := List.nodup_nil
  window := Nat.zero_le _
  asked := nofun
  next := Nat.zero_le _
  written := (List.append_nil _).symm
  received := by
    have hempty : filled (List.replicate s.totalPieces (none : Option Bytes)) = 0 := by
      rw [filled, List.countP_replicate]
      rfl
    exact hempty.symm
  slots := List.length_replicate

theorem Window.request (h : Window serde s start d c) (hwants : d.Wants s) :
    Window serde s start d.request
      { c with written := c.written ++ [requestBytes serde s d.nextToRequest] } where
  inFlight := congrArg Nat.succ h.inFlight
  distinct := by
    refine List.nodup_cons.mpr ⟨fun hmem => ?_, h.distinct⟩
    exact Nat.lt_irrefl _ (h.asked _ hmem)
  window := hwants.2
  asked := by
    intro i hi
    rcases List.mem_cons.mp hi with rfl | hi
    · exact Nat.lt_succ_self _
    · exact Nat.lt_succ_of_lt (h.asked i hi)
  next := hwants.1
  written := by
    have hrange :
        List.range (d.nextToRequest + 1) = List.range d.nextToRequest ++ [d.nextToRequest] :=
      List.range_succ
    change c.written ++ _ = _ ++ (List.range (d.nextToRequest + 1)).map _
    rw [h.written, hrange, List.map_append, List.append_assoc]
    rfl
  received := h.received
  slots := h.slots

/-- The requests after a piece has come in. -/
theorem Window.settle (h : Window serde s start d c) (i : Nat) :
    Window serde s start (d.settle i) c := by
  by_cases hi : i ∈ d.requested
  · have hsettled : d.settle i =
        { d with requested := d.requested.erase i, inFlight := d.inFlight - 1 } := by
      rw [Download.settle, if_pos hi]
    rw [hsettled]
    refine ⟨?_, h.distinct.erase i, ?_, ?_, h.next, h.written, h.received, h.slots⟩
    · have hlength := List.length_erase_of_mem hi
      have hflight := h.inFlight
      simp only
      omega
    · have hwindow := h.window
      simp only
      omega
    · exact fun j hj => h.asked j (List.mem_of_mem_erase hj)
  · have hsettled : d.settle i = d := by rw [Download.settle, if_neg hi]
    rw [hsettled]
    exact h

theorem Window.store (h : Window serde s start d c) (i : Nat) (data : Bytes) :
    Window serde s start (d.store i data) c := by
  have hfilled := (d.store_pieces i data).2 h.received
  have hslots : (d.store i data).pieces.length = s.totalPieces := by
    rw [(d.store_pieces i data).1, length_fill, h.slots]
  rw [Download.store] at hfilled hslots ⊢
  split
  · next hempty =>
    rw [if_pos hempty] at hfilled hslots
    exact ⟨h.inFlight, h.distinct, h.window, h.asked, h.next, h.written, hfilled, hslots⟩
  · exact h

/-- A message takes a request out of the window or leaves the window as it is. -/
theorem Window.receive {message : WireMessage} (h : Window serde s start d c)
    (hreceive : receiveMessage serde s d message = .ok d') : Window serde s start d' c := by
  unfold receiveMessage at hreceive
  split at hreceive
  · split at hreceive
    · split at hreceive
      · next i totalSize data _ =>
        rw [receiveData_of_valid (receiveData_valid hreceive)] at hreceive
        cases hreceive
        exact (h.settle i).store i data
      · cases hreceive
      · cases hreceive
        exact h
    · cases hreceive
      exact h
  · cases hreceive
    exact h

/-- Reading writes nothing. -/
theorem readNextFrame_written {stage : IoStage} {r : Except MetadataFetchError (Option WireMessage)}
    (h : readNextFrame stage c = (r, c')) : c'.written = c.written := by
  have hsilent := silent_readNextFrame stage c c.written
  rw [h] at hsilent
  exact congrArg (fun result => result.2.written) hsilent

theorem Window.step {event : FetchEvent} {state state' : Download × Conn}
    (h : Window serde s start state.1 state.2) (hstep : FetchStep serde s state event state') :
    Window serde s start state'.1 state'.2 := by
  cases hstep with
  | request hwants => exact h.request hwants
  | message _ _ hread hreceive =>
    have hreceived := h.receive hreceive
    exact { hreceived with written := (readNextFrame_written hread).trans hreceived.written }

/-- What a data message for any index may compute: nothing underflows or is out of range. -/
structure SafeArrival (s : Session) (d : Download) (i : Nat) : Prop where
  settle : i ∈ d.requested → 1 ≤ d.inFlight
  slot : i < s.totalPieces → i < d.pieces.length
  length : i < s.totalPieces → LenInRange s.metadataSize s.totalPieces i

theorem Window.safeArrival (h : Window serde s start d c)
    (hsize : s.metadataSize ≤ 64 * 1024 * 1024) (i : Nat) : SafeArrival s d i where
  settle hi := by
    rw [h.inFlight]
    exact List.length_pos_of_mem hi
  slot hi := h.slots.symm ▸ hi
  length hi := lenInRange hsize hi

/-! ## The code -/

theorem requestMore_run (serde : Serde) {fuel : Nat}
    (hfuel : s.totalPieces ≤ d.nextToRequest + fuel) (c : Conn) :
    ∃ d' c' es, requestMore serde s fuel d c = (.ok d', c') ∧
      Run (FetchStep serde s) (d, c) es (d', c') ∧ ¬d'.Wants s ∧ c'.incoming = c.incoming := by
  induction fuel generalizing d c with
  | zero => exact ⟨d, c, [], rfl, .refl _, fun hwants => by have := hwants.1; omega, rfl⟩
  | succ fuel ih =>
    by_cases hwants : d.Wants s
    · have hroom : s.totalPieces ≤ d.request.nextToRequest + fuel := by
        change s.totalPieces ≤ d.nextToRequest + 1 + fuel
        omega
      obtain ⟨d', c', es, hmore, hrun, hfull, hincoming⟩ := ih hroom
        { c with written := c.written ++ [requestBytes serde s d.nextToRequest] }
      refine ⟨d', c', .request :: es, ?_, run_cons (.request hwants) hrun, hfull, hincoming⟩
      rw [requestMore, if_pos hwants]
      exact hmore
    · refine ⟨d, c, [], ?_, .refl _, hwants, rfl⟩
      rw [requestMore, if_neg hwants]
      rfl

theorem readExact_shorter {size : Nat} {stage : IoStage} {b : Bytes}
    (h : readExact size stage c = (.ok b, c')) :
    c'.incoming.length + size = c.incoming.length := by
  rw [readExact] at h
  split at h
  · cases h
  · cases h
    rw [List.length_drop]
    omega

/-- A frame has a length in front. -/
theorem readNextFrame_shorter {stage : IoStage} {message : Option WireMessage}
    (h : readNextFrame stage c = (.ok message, c')) : c'.incoming.length < c.incoming.length := by
  obtain ⟨header, c₁, hheader, h⟩ := FetchM.bind_ok h
  have hlen := readExact_shorter hheader
  simp only at h
  split at h
  · cases h
    omega
  · split at h
    · cases h
    · obtain ⟨body, c₂, hbody, h⟩ := FetchM.bind_ok h
      have hbodyLen := readExact_shorter hbody
      cases h
      omega

theorem receivePieces_run (serde : Serde) {fuel : Nat} (hfuel : c.incoming.length < fuel)
    (hfull : ¬d.Wants s) :
    ∃ d' c' es, Run (FetchStep serde s) (d, c) es (d', c') ∧
      FetchEnds serde s (d', c') (receivePieces serde s fuel d c) := by
  induction fuel generalizing d c with
  | zero => cases hfuel
  | succ fuel ih =>
    rw [receivePieces]
    by_cases hcomplete : s.totalPieces ≤ d.received
    · rw [if_pos hcomplete]
      exact ⟨d, c, [], .refl _, .complete hfull hcomplete⟩
    · have hmissing := Nat.not_le.mp hcomplete
      rw [if_neg hcomplete]
      cases hread : readNextFrame .metadataRead c with
      | mk read c₁ =>
        cases read with
        | error e =>
          rw [FetchM.bind_eq, hread]
          exact ⟨d, c, [], .refl _, .readFailed hfull hmissing hread⟩
        | ok frame =>
          rw [FetchM.bind_of_ok hread]
          cases frame with
          | none => exact ⟨d, c, [], .refl _, .noMessage hfull hmissing hread⟩
          | some message =>
            simp only
            cases hreceive : receiveMessage serde s d message with
            | error e => exact ⟨d, c, [], .refl _, .refused hfull hmissing hread hreceive⟩
            | ok d₁ =>
              have hstep : FetchStep serde s (d, c) (.message message) (d₁, c₁) :=
                .message hfull hmissing hread hreceive
              obtain ⟨d₂, c₂, es, hmore, hrun, hfull', hincoming⟩ := requestMore_run serde
                (Nat.le_add_left s.totalPieces d₁.nextToRequest) c₁
              -- A frame takes at least the bytes of its length, so the input pays for the turns.
              have hleft : c₂.incoming.length < fuel := by
                have hshorter := readNextFrame_shorter hread
                rw [hincoming]
                omega
              obtain ⟨d', c', es', hrest, hends⟩ := ih hleft hfull'
              simp only
              rw [FetchM.bind_of_ok hmore]
              exact ⟨d', c', .message message :: (es ++ es'),
                run_cons hstep (hrun.append hrest), hends⟩

/-- A download is a run of the machine from its first state, and ends as the machine does. -/
theorem download_run (serde : Serde) (s : Session) (c : Conn) :
    ∃ d' c' es r, Run (FetchStep serde s) (Download.start s, c) es (d', c') ∧
      FetchEnds serde s (d', c') r ∧ download serde s c = (r.1.bind (assemble s), r.2) := by
  obtain ⟨d₁, c₁, es, hmore, hrun, hfull, -⟩ := requestMore_run serde
    (Nat.le_add_left s.totalPieces (Download.start s).nextToRequest) c
  obtain ⟨d', c', es', hrest, hends⟩ := receivePieces_run serde
    (Nat.lt_succ_self c₁.incoming.length) hfull
  refine ⟨d', c', es ++ es', _, hrun.append hrest, hends, ?_⟩
  have hloops : ∀ f : Download → FetchM Bytes, (requestMore serde s s.totalPieces (Download.start s) >>=
      fun d => withFuel (fun fuel => receivePieces serde s fuel d) >>= f) c =
        (receivePieces serde s (c₁.incoming.length + 1) d₁ >>= f) c₁ :=
    fun _ => FetchM.bind_of_ok hmore
  refine (hloops _).trans ?_
  rw [FetchM.bind_eq]
  cases hreceive : receivePieces serde s (c₁.incoming.length + 1) d₁ c₁ with
  | mk result c₂ =>
    cases result with
    | error e => rfl
    | ok d₂ =>
      simp only [Except.bind]
      cases assemble s d₂ <;> rfl

/-! ## The session -/

theorem readExtendedHandshake_valid {decode : Bytes → Except String BencodeValue} {fuel : Nat}
    {hello : ExtendedHandshake} (h : readExtendedHandshake decode fuel c = (.ok hello, c')) :
    hello.Valid := by
  induction fuel generalizing c with
  | zero => cases h
  | succ fuel ih =>
    obtain ⟨frame, c₁, -, h⟩ := FetchM.bind_ok h
    split at h
    · split at h
      · exact ExtendedHandshake.fromBytes_valid (getOr_ok h).1
      · exact ih h
    · exact ih h
    · cases h

/-- A state of the download that follows an open session. -/
def FetchReaches (serde : Serde) (s : Session) (start : Conn) (d : Download) (c : Conn) : Prop :=
  Reachable (fun state => state = (Download.start s, start)) (FetchStep serde s) (d, c)

theorem FetchReaches.window (h : FetchReaches serde s start d c) : Window serde s start d c :=
  h.invariant (I := fun state => Window serde s start state.1 state.2)
    (fun _ hinit => hinit ▸ Window.init serde s start) fun _ _ _ hwindow hstep => hwindow.step hstep

/-- In every execution the size is the one of the handshake and the window is the clamped `reqq`;
the download passes through states of the machine only, and in each of them the requests in
flight are the requested pieces and no arithmetic goes wrong on any message. -/
theorem request_window (serde : Serde) (infoHash : InfoHash) (ourPeerId : BitVec 160)
    (maxMetadataSize : Nat) {first start : Conn} {s : Session}
    (hopen : openSession serde infoHash ourPeerId maxMetadataSize first = (.ok s, start)) :
    (∃ hello fuel c, readExtendedHandshake serde.decode fuel c = (.ok hello, start) ∧
      hello.Valid ∧ Opened s hello maxMetadataSize) ∧
    ((List.range s.totalPieces).map (metadataPieceLen s.metadataSize s.totalPieces)).sum =
      s.metadataSize ∧
    (∀ d c, FetchReaches serde s start d c →
      Window serde s start d c ∧ ∀ i, SafeArrival s d i) ∧
    ∃ d c r, FetchReaches serde s start d c ∧ FetchEnds serde s (d, c) r ∧
      fetchFromStreamWithLimit serde infoHash ourPeerId maxMetadataSize first =
        (r.1.bind (assemble s), r.2) := by
  obtain ⟨hello, fuel, c₁, hread, hopened⟩ := openSession_hello hopen
  have hvalid := readExtendedHandshake_valid hread
  have hsize := (hvalid.metadataSize _ hopened.size).2
  refine ⟨⟨hello, fuel, c₁, hread, hvalid, hopened⟩, sum_metadataPieceLen s.metadataSize, ?_, ?_⟩
  · exact fun d c hreach => ⟨hreach.window, hreach.window.safeArrival hsize⟩
  · obtain ⟨d, c, es, r, hrun, hends, hdownload⟩ := download_run serde s start
    refine ⟨d, c, r, ⟨_, es, rfl, hrun⟩, hends, ?_⟩
    rw [← hdownload, fetchFromStreamWithLimit]
    exact FetchM.bind_of_ok hopen

/-- Both pieces are requested, and the second one has come in. -/
def secondReceived : Download := ⟨[none, some (asBytes "de")], 1, 2, 1, [0]⟩

theorem receiveMessage_secondPiece :
    receiveMessage plainSerde ⟨3, 16386, 2⟩ (Download.start ⟨3, 16386, 2⟩).request.request
      (.extended localMetadataId (piecePayload 1)) = .ok secondReceived := by
  have hblock : block blockSize twoPieces 1 = asBytes "de" := by
    rw [block, twoPieces, List.drop_left' (by rw [List.length_replicate, Nat.mul_one])]
    rfl
  have hvalid : ValidData ⟨3, 16386, 2⟩ 1 16386 (asBytes "de") := ⟨rfl, by decide, by decide⟩
  rw [receiveMessage, if_pos rfl, parse_piecePayload (by decide), hblock]
  exact receiveData_of_valid hvalid

theorem request_window_secondReceived :
    ∃ s start c, openSession plainSerde 5 7 20000
        ⟨twoPiecesGreeting.bytes ++ ((pieceFrame 1).bytes ++ []), []⟩ = (.ok s, start) ∧
      FetchReaches plainSerde s start secondReceived c ∧
      Window plainSerde s start secondReceived c ∧ SafeArrival s secondReceived 0 := by
  obtain ⟨w, hopen⟩ := openSession_greeting twoPiecesGreeting 7 (by rw [length_twoPieces]; decide)
    (by rw [length_twoPieces]; decide : twoPieces.length ≤ 20000) ((pieceFrame 1).bytes ++ [])
  rw [twoPiecesGreeting_session] at hopen
  have hfirst : (Download.start ⟨3, 16386, 2⟩).Wants ⟨3, 16386, 2⟩ := by decide
  have hsecond : (Download.start ⟨3, 16386, 2⟩).request.Wants ⟨3, 16386, 2⟩ := by decide
  have hreach : FetchReaches plainSerde ⟨3, 16386, 2⟩ ⟨(pieceFrame 1).bytes ++ [], w⟩
      secondReceived _ :=
    ⟨_, _, rfl, run_cons (.request hfirst) (run_cons (.request hsecond)
      (run_cons (.message (by decide) (by decide) (readNextFrame_frame (pieceFrame 1) _ _ _)
        receiveMessage_secondPiece) (.refl _)))⟩
  have hwindow := (request_window plainSerde 5 7 20000 hopen).2.2.1 _ _ hreach
  exact ⟨_, _, _, hopen, hreach, hwindow.1, hwindow.2 0⟩

end Btfind
