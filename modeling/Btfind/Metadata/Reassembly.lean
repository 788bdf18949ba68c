import Btfind.Metadata.Greeting

/-!
# Reassembly

The metadata in blocks, a peer that sends these blocks, and the download from it.
-/

namespace Btfind

open Blocks FetchM

variable {serde : Serde} {s : Session} {d d' : Download} {m : Bytes}

/-! ## The blocks of the metadata -/

theorem metadataPieceLen_block {i : Nat} (hi : i < metadataPieceCount m.length) :
    metadataPieceLen m.length (metadataPieceCount m.length) i = (block blockSize m i).length := by
  rw [length_block]
  unfold metadataPieceLen metadataPieceCount blockSize at *
  split <;> omega

theorem length_le_pieces (m : Bytes) : m.length ≤ blockSize * metadataPieceCount m.length := by
  unfold metadataPieceCount blockSize
  omega

theorem metadataPieceLen_le (size i : Nat) :
    metadataPieceLen size (metadataPieceCount size) i ≤ blockSize := by
  unfold metadataPieceLen metadataPieceCount blockSize
  split <;> omega

/-! ## An honest peer -/

/-- No reject, and every data message is a block of the metadata. -/
def Honest (decode : Bytes → Except String BencodeValue) (m : Bytes) (message : WireMessage) :
    Prop :=
  ∀ payload, message = .extended localMetadataId payload →
    parseMetadataResponse decode payload ≠ some (.error ()) ∧
      ∀ i totalSize data,
        parseMetadataResponse decode payload = some (.ok (i, totalSize, data)) →
          i < metadataPieceCount m.length ∧ totalSize = m.length ∧ data = block blockSize m i

/-- A data message for a piece. -/
def Carries (decode : Bytes → Except String BencodeValue) (i : Nat) (message : WireMessage) :
    Prop :=
  ∃ payload totalSize data, message = .extended localMetadataId payload ∧
    parseMetadataResponse decode payload = some (.ok (i, totalSize, data))

theorem Honest.receive {message : WireMessage} (h : Honest serde.decode m message)
    (hsize : s.metadataSize = m.length) (d : Download) :
    ∃ d', receiveMessage serde s d message = .ok d' := by
  unfold receiveMessage
  split
  · next id payload =>
    split
    · next hid =>
      obtain ⟨hreject, hdata⟩ := h payload (by rw [hid])
      split
      · next i totalSize data hparse =>
        obtain ⟨hi, htotal, hblock⟩ := hdata _ _ _ hparse
        have hvalid : ValidData s i totalSize data := by
          unfold ValidData Session.totalPieces
          rw [hsize, metadataPieceLen_block hi, hblock]
          exact ⟨htotal, hi, rfl⟩
        exact ⟨_, receiveData_of_valid hvalid⟩
      · next hparse => exact absurd hparse hreject
      · exact ⟨d, rfl⟩
    · exact ⟨d, rfl⟩
  · exact ⟨d, rfl⟩

theorem Honest.dataOf_eq {message : WireMessage} (h : Honest serde.decode m message)
    {i : Nat} {data : Bytes} (hdata : dataOf serde s message = some (i, data)) :
    data = block blockSize m i := by
  unfold dataOf at hdata
  split at hdata
  · next id payload =>
    split at hdata
    · next hid =>
      split at hdata
      · next j totalSize other hparse =>
        split at hdata
        · cases hdata
          exact ((h payload (by rw [hid])).2 _ _ _ hparse).2.2
        · cases hdata
      · cases hdata
    · cases hdata
  · cases hdata

theorem Carries.dataOf_eq {message : WireMessage} {i : Nat} (h : Carries serde.decode i message)
    (hhonest : Honest serde.decode m message) (hsize : s.metadataSize = m.length) :
    dataOf serde s message = some (i, block blockSize m i) := by
  obtain ⟨payload, totalSize, data, rfl, hparse⟩ := h
  obtain ⟨hi, htotal, hblock⟩ := (hhonest payload rfl).2 _ _ _ hparse
  have hvalid : ValidData s i totalSize data := by
    unfold ValidData Session.totalPieces
    rw [hsize, metadataPieceLen_block hi, hblock]
    exact ⟨htotal, hi, rfl⟩
  rw [dataOf, if_pos rfl, hparse]
  simp only
  rw [if_pos hvalid, hblock]

/-! ## The download from an honest peer -/

/-- Every piece that is there is the block of the metadata. -/
def Download.Blocks (d : Download) (m : Bytes) : Prop :=
  ∀ i data, d.pieces[i]? = some (some data) → data = block blockSize m i

theorem Download.Blocks.receive {message : WireMessage} (hd : d.Ok s) (hblocks : d.Blocks m)
    (hhonest : Honest serde.decode m message)
    (h : receiveMessage serde s d message = .ok d') : d'.Blocks m := by
  obtain ⟨-, hpieces⟩ := receiveMessage_ok hd h
  intro i data hi
  rw [hpieces] at hi
  cases hdata : dataOf serde s message with
  | none =>
    rw [hdata] at hi
    exact hblocks i data hi
  | some arrival =>
    obtain ⟨j, other⟩ := arrival
    rw [hdata, Option.toList_some, List.foldl_cons, List.foldl_nil, getElem_fill] at hi
    obtain ⟨slot, hslot, heq⟩ := Option.map_eq_some_iff.mp hi
    cases slot with
    | some kept =>
      cases heq
      exact hblocks i _ hslot
    | none =>
      rw [Option.none_or] at heq
      split at heq
      · next hij =>
        cases heq
        exact hij ▸ hhonest.dataOf_eq hdata
      · cases heq

/-- A piece stays, and the message that carries it brings it. -/
theorem receiveMessage_there {message : WireMessage} (hd : d.Ok s)
    (hhonest : Honest serde.decode m message) (hsize : s.metadataSize = m.length)
    (h : receiveMessage serde s d message = .ok d') {i : Nat} (hi : i < s.totalPieces)
    (hthere : (∃ data, d.pieces[i]? = some (some data)) ∨ Carries serde.decode i message) :
    ∃ data, d'.pieces[i]? = some (some data) := by
  obtain ⟨-, hpieces⟩ := receiveMessage_ok hd h
  have hslot : ∃ slot, d.pieces[i]? = some slot :=
    ⟨_, List.getElem?_eq_getElem (hd.length_eq ▸ hi)⟩
  rw [hpieces, getElem_fillAll]
  obtain ⟨slot, hslot⟩ := hslot
  rw [hslot, Option.map_some]
  rcases hthere with ⟨data, hdata⟩ | hcarries
  · rw [hdata] at hslot
    cases hslot
    exact ⟨data, rfl⟩
  · rw [hcarries.dataOf_eq hhonest hsize]
    cases slot with
    | some kept => exact ⟨kept, rfl⟩
    | none => exact ⟨block blockSize m i, by simp [firstFor]⟩

theorem receivePieces_full (serde : Serde) (fuel : Nat) (c : Conn)
    (h : s.totalPieces ≤ d.received) : receivePieces serde s (fuel + 1) d c = (.ok d, c) := by
  rw [receivePieces, if_pos h]
  rfl

/-- The loop ends with all blocks, when the frames carry what is not there yet. -/
theorem receivePieces_frames (hsize : s.metadataSize = m.length) (frames : List Frame)
    (hhonest : ∀ f ∈ frames, Honest serde.decode m f.message) (rest : Bytes) (fuel : Nat)
    (hfuel : frames.length < fuel) (w : List Bytes) (hd : d.Ok s) (hblocks : d.Blocks m)
    (hall : ∀ i < s.totalPieces, (∃ data, d.pieces[i]? = some (some data)) ∨
      ∃ f ∈ frames, Carries serde.decode i f.message) :
    ∃ d' c', receivePieces serde s fuel d ⟨frames.flatMap Frame.bytes ++ rest, w⟩ = (.ok d', c') ∧
      d'.Ok s ∧ d'.Blocks m ∧ s.totalPieces ≤ d'.received := by
  induction frames generalizing fuel d w with
  | nil =>
    obtain ⟨fuel, rfl⟩ := Nat.exists_eq_succ_of_ne_zero (Nat.ne_zero_of_lt hfuel)
    -- No frame is left to carry a piece, so all of them are there.
    have hfull : s.totalPieces ≤ d.received := by
      rw [hd.received_eq, ← hd.length_eq, filled, Nat.le_iff_lt_or_eq, eq_comm]
      refine .inr (List.countP_eq_length.mpr fun slot hslot => ?_)
      obtain ⟨i, hi, rfl⟩ := List.getElem_of_mem hslot
      obtain ⟨data, hdata⟩ | ⟨f, hf, -⟩ := hall i (hd.length_eq ▸ hi)
      · rw [List.getElem?_eq_getElem hi, Option.some_inj] at hdata
        rw [hdata]
        rfl
      · cases hf
    exact ⟨d, _, receivePieces_full serde fuel _ hfull, hd, hblocks, hfull⟩
  | cons f frames ih =>
    obtain ⟨fuel, rfl⟩ := Nat.exists_eq_succ_of_ne_zero (Nat.ne_zero_of_lt hfuel)
    by_cases hfull : s.totalPieces ≤ d.received
    · exact ⟨d, _, receivePieces_full serde fuel _ hfull, hd, hblocks, hfull⟩
    · have hf := hhonest f List.mem_cons_self
      obtain ⟨d₁, hreceive⟩ := hf.receive hsize d
      obtain ⟨d₂, w', hmore, hpieces, hreceived⟩ := requestMore_ok serde s s.totalPieces d₁
        ⟨frames.flatMap Frame.bytes ++ rest, w⟩
      obtain ⟨hok, -⟩ := receiveMessage_ok hd hreceive
      rw [receivePieces, if_neg hfull, List.flatMap_cons, List.append_assoc,
        FetchM.bind_of_ok (readNextFrame_frame f _ _ _)]
      simp only
      rw [hreceive]
      simp only
      rw [FetchM.bind_of_ok hmore]
      refine ih (fun g hg => hhonest g (List.mem_cons_of_mem _ hg)) fuel
        (Nat.lt_of_succ_lt_succ hfuel) w' (hok.of_pieces hpieces hreceived) ?_ ?_
      · have hkeep := hblocks.receive hd hf hreceive
        unfold Download.Blocks at hkeep ⊢
        rw [hpieces]
        exact hkeep
      · intro i hi
        rw [hpieces]
        rcases hall i hi with hthere | ⟨g, hg, hcarries⟩
        · exact .inl (receiveMessage_there hd hf hsize hreceive hi (.inl hthere))
        · rcases List.mem_cons.mp hg with rfl | hg
          · exact .inl (receiveMessage_there hd hf hsize hreceive hi (.inr hcarries))
          · exact .inr ⟨g, hg, hcarries⟩

/-- Full slots that hold blocks are the metadata. -/
theorem assemble_blocks (hsize : s.metadataSize = m.length) (hpos : 0 < m.length) (hd : d.Ok s)
    (hblocks : d.Blocks m) (hfull : s.totalPieces ≤ d.received) : assemble s d = .ok m := by
  have hslots : d.pieces = ((List.range s.totalPieces).map (block blockSize m)).map some := by
    refine List.ext_getElem? fun i => ?_
    by_cases hi : i < s.totalPieces
    · obtain ⟨data, hdata⟩ := all_filled (by rw [hd.length_eq, ← hd.received_eq]; exact hfull)
        (hd.length_eq ▸ hi : i < d.pieces.length)
      rw [hdata, hblocks i data hdata]
      simp [hi]
    · rw [List.getElem?_eq_none (by rw [hd.length_eq]; omega), List.getElem?_eq_none (by simp; omega)]
  have hjoin : ((List.range s.totalPieces).map (block blockSize m)).flatten = m := by
    apply flatten_of_blocks (m := m)
    · rw [List.length_map, List.length_range, Session.totalPieces, hsize]
      exact length_le_pieces m
    · intro i hi
      rw [List.length_map, List.length_range] at hi
      rw [List.getElem?_map, List.getElem?_range hi, Option.map_some]
  rw [assemble]
  rw [contents_eq_some.mpr hslots]
  simp only
  rw [hjoin, if_neg, if_neg (not_not.mpr hsize.symm)]
  rw [List.isEmpty_iff, ← List.length_eq_zero_iff]
  exact Nat.ne_of_gt hpos

theorem Download.ok_start (s : Session) : (Download.start s).Ok s := by
  refine ⟨List.length_replicate, ?_, fun i data hi => ?_⟩
  · rw [Download.start, filled, List.countP_replicate]
    rfl
  · rw [Download.start, List.getElem?_replicate] at hi
    split at hi <;> cases hi

/-- An honest peer that sends every block is enough. -/
theorem download_frames (hsize : s.metadataSize = m.length) (hpos : 0 < m.length)
    (frames : List Frame) (hhonest : ∀ f ∈ frames, Honest serde.decode m f.message)
    (hall : ∀ i < metadataPieceCount m.length, ∃ f ∈ frames, Carries serde.decode i f.message)
    (rest : Bytes) (w : List Bytes) :
    ∃ c, download serde s ⟨frames.flatMap Frame.bytes ++ rest, w⟩ = (.ok m, c) := by
  obtain ⟨d₀, w₀, hmore, hpieces, hreceived⟩ := requestMore_ok serde s s.totalPieces
    (Download.start s) ⟨frames.flatMap Frame.bytes ++ rest, w⟩
  have hblocks : d₀.Blocks m := by
    intro i data hi
    rw [hpieces, Download.start, List.getElem?_replicate] at hi
    split at hi <;> cases hi
  -- Every frame has a length prefix, so there are fewer frames than bytes.
  have hfuel : frames.length < (frames.flatMap Frame.bytes ++ rest).length + 1 := by
    have hframes := length_frames frames
    rw [List.length_append]
    omega
  obtain ⟨d, c, hrun, hd, hblocks, hfull⟩ := receivePieces_frames hsize frames hhonest rest _ hfuel
    w₀ ((Download.ok_start s).of_pieces hpieces hreceived) hblocks fun i hi =>
      .inr (hall i (by rw [← hsize]; exact hi))
  have hloop : withFuel (fun fuel => receivePieces serde s fuel d₀)
      ⟨frames.flatMap Frame.bytes ++ rest, w₀⟩ = (.ok d, c) := hrun
  refine ⟨c, ?_⟩
  rw [download]
  rw [FetchM.bind_of_ok hmore, FetchM.bind_of_ok hloop, assemble_blocks hsize hpos hd hblocks hfull]
  rfl

/-! ## The download from any peer -/

/-- The messages of a stream, up to the first frame that is none. -/
def messages : Nat → Bytes → List WireMessage
  | 0, _ => []
  | fuel + 1, incoming =>
    match readNextFrame .metadataRead ⟨incoming, []⟩ with
    | (.ok (some message), c) => message :: messages fuel c.incoming
    | _ => []

/-- The pieces of the valid data messages of a stream. -/
def arrivals (serde : Serde) (s : Session) (incoming : Bytes) : List (Nat × Bytes) :=
  (messages (incoming.length + 1) incoming).filterMap (dataOf serde s)

/-- The pieces are filled by the messages that the loop took. -/
theorem receivePieces_ok (fuel : Nat) {c c' : Conn} (hd : d.Ok s)
    (h : receivePieces serde s fuel d c = (.ok d', c')) :
    d'.Ok s ∧ ∃ taken left, messages fuel c.incoming = taken ++ left ∧
      d'.pieces = (taken.filterMap (dataOf serde s)).foldl fill d.pieces := by
  induction fuel generalizing d c with
  | zero => cases h
  | succ fuel ih =>
    by_cases hfull : s.totalPieces ≤ d.received
    · rw [receivePieces_full serde fuel c hfull] at h
      cases h
      exact ⟨hd, [], _, rfl, rfl⟩
    · rw [receivePieces, if_neg hfull] at h
      obtain ⟨frame, c₁, hread, h⟩ := FetchM.bind_ok h
      -- What is read does not depend on what was written.
      have hsilent := silent_readNextFrame .metadataRead c []
      rw [hread] at hsilent
      cases frame with
      | none =>
        cases h
        exact ⟨hd, [], _, rfl, rfl⟩
      | some message =>
        simp only at h
        cases hreceive : receiveMessage serde s d message with
        | error e =>
          rw [hreceive] at h
          cases h
        | ok d₁ =>
          rw [hreceive] at h
          simp only at h
          obtain ⟨hok, hfill⟩ := receiveMessage_ok hd hreceive
          obtain ⟨d₂, w, hmore, hpieces, hreceived⟩ :=
            requestMore_ok serde s s.totalPieces d₁ c₁
          rw [FetchM.bind_of_ok hmore] at h
          obtain ⟨hok', taken, left, hmessages, hrest⟩ := ih (hok.of_pieces hpieces hreceived) h
          refine ⟨hok', message :: taken, left, ?_, ?_⟩
          · rw [messages, hsilent, List.cons_append, ← hmessages]
          · rw [hrest, hpieces, hfill]
            cases hdata : dataOf serde s message with
            | none => rw [List.filterMap_cons_none hdata, Option.toList_none, List.foldl_nil]
            | some arrival =>
              rw [List.filterMap_cons_some hdata, Option.toList_some, List.foldl_cons,
                List.foldl_cons, List.foldl_nil]

theorem firstFor_append {i : Nat} {a : Bytes} {taken : List (Nat × Bytes)}
    (h : firstFor i taken = some a) (left : List (Nat × Bytes)) :
    firstFor i (taken ++ left) = some a := by
  unfold firstFor at *
  obtain ⟨arrival, hfind, heq⟩ := Option.map_eq_some_iff.mp h
  rw [List.find?_append, hfind, Option.some_or, Option.map_some, heq]

theorem assemble_ok {data : Bytes} (h : assemble s d = .ok data) :
    data.length = s.metadataSize ∧ ∃ pieces : List Bytes, d.pieces = pieces.map some ∧
      data = pieces.flatten := by
  unfold assemble at h
  cases hcontents : contents d.pieces with
  | none =>
    rw [hcontents] at h
    cases h
  | some pieces =>
    rw [hcontents] at h
    simp only at h
    split at h
    · cases h
    · split at h
      · cases h
      · next hlen =>
        cases h
        exact ⟨not_not.mp hlen, pieces, contents_eq_some.mp hcontents, rfl⟩

/-- The blocks of the result are the pieces. -/
theorem Download.Ok.pieces_eq (hd : d.Ok s) {pieces : List Bytes}
    (hpieces : d.pieces = pieces.map some) {i : Nat} (hi : i < s.totalPieces) :
    d.pieces[i]? = some (some (block blockSize pieces.flatten i)) := by
  have hlen : pieces.length = s.totalPieces := by
    rw [← hd.length_eq, hpieces, List.length_map]
  have hpiece : ∀ j p, pieces[j]? = some p →
      p.length = metadataPieceLen s.metadataSize s.totalPieces j := fun j p hp =>
    hd.sized j p (by rw [hpieces, List.getElem?_map, hp, Option.map_some])
  -- Only the last piece may be short, so the pieces are the blocks of what they make up.
  have hinner : ∀ j p, j + 1 < pieces.length → pieces[j]? = some p → p.length = blockSize := by
    intro j p hj hp
    rw [hpiece j p hp, metadataPieceLen, if_neg (by omega)]
  have hlast : ∀ p ∈ pieces, p.length ≤ blockSize := by
    intro p hp
    obtain ⟨j, hj⟩ := List.getElem?_of_mem hp
    rw [hpiece j p hj]
    exact metadataPieceLen_le _ _
  rw [hpieces, List.getElem?_map, block_flatten hinner hlast (hlen ▸ hi), Option.map_some]

/-- A download has the size that the handshake says, and its blocks are the first valid
data for their pieces. -/
theorem download_ok {c c' : Conn} {data : Bytes} (h : download serde s c = (.ok data, c')) :
    data.length = s.metadataSize ∧ ∀ i < s.totalPieces,
      firstFor i (arrivals serde s c.incoming) = some (block blockSize data i) := by
  unfold download at h
  obtain ⟨d₀, w₀, hmore, hpieces, hreceived⟩ := requestMore_ok serde s s.totalPieces
    (Download.start s) c
  rw [FetchM.bind_of_ok hmore] at h
  obtain ⟨d, c₁, hloop, h⟩ := FetchM.bind_ok h
  have hrun : receivePieces serde s (c.incoming.length + 1) d₀ { c with written := w₀ } =
      (.ok d, c₁) := hloop
  obtain ⟨hd, taken, left, hmessages, hfill⟩ :=
    receivePieces_ok _ ((Download.ok_start s).of_pieces hpieces hreceived) hrun
  cases hassemble : assemble s d with
  | error e =>
    rw [hassemble] at h
    cases h
  | ok data' =>
    rw [hassemble] at h
    cases h
    obtain ⟨hsize, pieces, hslots, hflatten⟩ := assemble_ok hassemble
    refine ⟨hsize, fun i hi => ?_⟩
    have hpiece := hd.pieces_eq hslots hi
    rw [← hflatten, hfill, getElem_fillAll, hpieces, Download.start, List.getElem?_replicate, if_pos hi,
      Option.map_some, Option.some_inj, Option.none_or] at hpiece
    rw [arrivals, hmessages, List.filterMap_append]
    exact firstFor_append hpiece _

/-- A peer that completes the handshakes and sends every block is enough, whatever the
order and whatever else it sends; and a download from any peer has the size that the
handshake says, within the limit, and consists of the first valid data for each piece. -/
theorem fetch_reassembles (serde : Serde) (infoHash : InfoHash) (ourPeerId : BitVec 160)
    (maxMetadataSize : Nat) :
    (∀ m : Bytes, 1 ≤ m.length → m.length ≤ maxMetadataSize →
      ∀ (g : Greeting serde infoHash m.length) (frames : List Frame),
        (∀ f ∈ frames, Honest serde.decode m f.message) →
        (∀ i < metadataPieceCount m.length, ∃ f ∈ frames, Carries serde.decode i f.message) →
        ∀ rest, ∃ c, fetchFromStreamWithLimit serde infoHash ourPeerId maxMetadataSize
          ⟨g.bytes ++ (frames.flatMap Frame.bytes ++ rest), []⟩ = (.ok m, c)) ∧
      ∀ c data c',
        fetchFromStreamWithLimit serde infoHash ourPeerId maxMetadataSize c = (.ok data, c') →
        ∃ s c₁, openSession serde infoHash ourPeerId maxMetadataSize c = (.ok s, c₁) ∧
          data.length = s.metadataSize ∧ s.metadataSize ≤ maxMetadataSize ∧
          ∀ i < s.totalPieces,
            firstFor i (arrivals serde s c₁.incoming) = some (block blockSize data i) := by
  constructor
  · intro m hpos hmax g frames hhonest hall rest
    obtain ⟨w, hopen⟩ := openSession_greeting g ourPeerId hpos hmax
      (frames.flatMap Frame.bytes ++ rest)
    obtain ⟨c, hdownload⟩ := download_frames (s := g.session) rfl hpos frames hhonest hall rest w
    refine ⟨c, ?_⟩
    rw [fetchFromStreamWithLimit]
    rw [FetchM.bind_of_ok hopen, hdownload]
  · intro c data c' h
    obtain ⟨s, c₁, hopen, hdownload⟩ := FetchM.bind_ok h
    obtain ⟨hsize, hblocks⟩ := download_ok hdownload
    exact ⟨s, c₁, hopen, hsize, (openSession_ok hopen).2, hblocks⟩

/-- The second piece comes before the first one, with a keep-alive in between, and once more. -/
def secondFirst : List Frame := [pieceFrame 1, idleFrame, pieceFrame 0, pieceFrame 1]

theorem fetch_reassembles_secondFirst :
    ∃ c, fetchFromStreamWithLimit plainSerde 5 7 20000
      ⟨twoPiecesGreeting.bytes ++ (secondFirst.flatMap Frame.bytes ++ []), []⟩ =
        (.ok twoPieces, c) := by
  have hcount : metadataPieceCount twoPieces.length = 2 := by rw [length_twoPieces]; rfl
  have hdata : ∀ i, Honest plainSerde.decode twoPieces (pieceFrame i).message := by
    intro i payload hpayload
    obtain rfl : piecePayload i = payload := (WireMessage.extended.inj hpayload).2
    rw [parse_piecePayload i.isLt]
    refine ⟨nofun, fun j totalSize data h => ?_⟩
    obtain ⟨rfl, rfl, rfl⟩ : i.val = j ∧ 16386 = totalSize ∧
        block blockSize twoPieces i = data := by simpa using h
    exact ⟨i.isLt.trans_eq hcount.symm, length_twoPieces.symm, rfl⟩
  have hhonest : ∀ f ∈ secondFirst, Honest plainSerde.decode twoPieces f.message := by
    simp only [secondFirst, List.forall_mem_cons]
    exact ⟨hdata 1, nofun, hdata 0, hdata 1, nofun⟩
  have hcarries : ∀ i < metadataPieceCount twoPieces.length,
      ∃ f ∈ secondFirst, Carries plainSerde.decode i f.message := by
    intro i hi
    rw [hcount] at hi
    have hsent : pieceFrame ⟨i, hi⟩ ∈ secondFirst := by
      interval_cases i
      · exact .tail _ (.tail _ (.head _))
      · exact .head _
    exact ⟨_, hsent, _, _, _, rfl, parse_piecePayload hi⟩
  exact (fetch_reassembles plainSerde 5 7 20000).1 twoPieces (by rw [length_twoPieces]; decide)
    (by rw [length_twoPieces]; decide) twoPiecesGreeting secondFirst hhonest hcarries []

end Btfind
