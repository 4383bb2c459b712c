import ReplicatedLog.Proofs.Wire.Frame

namespace ReplicatedLog

namespace FrameReader

variable {reader next last : FrameReader} {body : Bytes} {fault : IoFault}

/-- Pieces arrive one after the other, and what is there is taken up after each of them. -/
def takeIn : (pieces : List Bytes) → FrameReader → List (Except WireFault Packet) × FrameReader
  | [], reader => ([], reader)
  | piece :: rest, reader =>
    let (packets, reader) := (reader.feed piece).drain
    let (more, reader) := takeIn rest reader
    (packets ++ more, reader)

/-- Nothing more can be taken up before bytes arrive. -/
def Waits (reader : FrameReader) : Prop :=
  reader.nextBody = (.ok none, reader)

/-- A length that is too big blocks the stream. -/
def Blocked (reader : FrameReader) (fault : IoFault) : Prop :=
  reader.nextBody = (.error fault, reader)

theorem feed_nil (reader : FrameReader) : reader.feed [] = reader := by
  rw [feed, List.append_nil]

theorem feed_append (reader : FrameReader) (first second : Bytes) :
    reader.feed (first ++ second) = (reader.feed first).feed second := by
  rw [feed, feed, feed, List.append_assoc]

section Drain

theorem drain_of_body (hbody : reader.nextBody = (.ok (some body), next)) :
    reader.drain = (packetOf body :: next.drain.1, next.drain.2) := by
  rw [drain]
  split
  next hother => simp [hbody] at hother
  next hother => simp [hbody] at hother
  next hother =>
    rw [hbody] at hother
    obtain ⟨hsame, rfl⟩ := Prod.mk.inj hother
    obtain rfl := Option.some.inj (Except.ok.inj hsame)
    rfl

theorem drain_of_none (hnone : reader.nextBody = (.ok none, next)) : reader.drain = ([], next) := by
  rw [drain]
  split
  next hother => simp [hnone] at hother
  next hother =>
    rw [hnone] at hother
    rw [(Prod.mk.inj hother).2]
  next hother => simp [hnone] at hother

theorem drain_of_fault (hfault : reader.nextBody = (.error fault, next)) :
    reader.drain = ([.error (.io fault)], next) := by
  rw [drain]
  split
  next hother =>
    rw [hfault] at hother
    obtain ⟨hsame, rfl⟩ := Prod.mk.inj hother
    rw [Except.error.inj hsame]
  next hother => simp [hfault] at hother
  next hother => simp [hfault] at hother

/-- What can be taken up next decides what all is taken up. -/
theorem drain_congr {other : FrameReader} (hsame : reader.nextBody = other.nextBody) :
    reader.drain = other.drain := by
  rcases hnext : other.nextBody with ⟨_ | _ | body, next⟩
  · rw [drain_of_fault hnext, drain_of_fault (hsame.trans hnext)]
  · rw [drain_of_none hnext, drain_of_none (hsame.trans hnext)]
  · rw [drain_of_body hnext, drain_of_body (hsame.trans hnext)]

end Drain

section Feed

variable {length : Nat}

theorem takeBody_of_le (henough : length ≤ reader.buffer.length) :
    reader.takeBody length = (some (reader.buffer.take length), ⟨none, reader.buffer.drop length⟩) :=
  if_neg (not_lt.mpr henough)

theorem takeBody_of_lt (hshort : reader.buffer.length < length) :
    reader.takeBody length = (none, { reader with awaited := some length }) :=
  if_pos hshort

/-- A body that is there is taken in the same way when more bytes are behind it. -/
theorem takeBody_feed_of_le (henough : length ≤ reader.buffer.length) (piece : Bytes) :
    (reader.feed piece).takeBody length =
      (some (reader.buffer.take length), feed ⟨none, reader.buffer.drop length⟩ piece) := by
  have hmore : length ≤ (reader.feed piece).buffer.length := by
    rw [feed, List.length_append]
    omega
  rw [takeBody_of_le hmore]
  simp only [feed, List.take_append_of_le_length henough, List.drop_append_of_le_length henough]

/-- The length in front of a body is read in the same way when more bytes are behind it. -/
theorem announced_feed (hhead : Frame.headLength ≤ reader.buffer.length) (piece : Bytes) :
    (reader.feed piece).announced = reader.announced ∧
      (reader.feed piece).dropHead = reader.dropHead.feed piece := by
  constructor
  · rw [announced, announced, feed, List.take_append_of_le_length hhead]
  · rw [dropHead, dropHead, feed, feed, List.drop_append_of_le_length hhead]

/-- Bytes that arrive change nothing about a body that is there or a fault of the stream. Whoever
    looked for a body in vain before finds in them what others do. -/
theorem nextBody_feed (reader : FrameReader) (piece : Bytes) :
    (reader.feed piece).nextBody =
      match reader.nextBody with
      | (.ok (some body), next) => (.ok (some body), next.feed piece)
      | (.ok none, next) => (next.feed piece).nextBody
      | (.error fault, _) => (.error fault, reader.feed piece) := by
  cases hawaited : reader.awaited with
  | some length =>
    have hsame : (reader.feed piece).awaited = some length := hawaited
    by_cases henough : length ≤ reader.buffer.length
    · simp only [nextBody, hawaited, hsame, takeBody_feed_of_le henough, takeBody_of_le henough,
        Prod.map, id]
    · simp only [nextBody, hawaited, hsame, takeBody_of_lt (not_le.mp henough), Prod.map, id]
      rfl
  | none =>
    have hsame : (reader.feed piece).awaited = none := hawaited
    by_cases hhead : reader.buffer.length < Frame.headLength
    · simp only [nextBody, hawaited, if_pos hhead]
    have hlong : ¬ (reader.feed piece).buffer.length < Frame.headLength := by
      rw [feed, List.length_append]
      omega
    obtain ⟨hannounced, hrest⟩ := announced_feed (not_lt.mp hhead) piece
    by_cases hbig : Frame.maxLength < reader.announced
    · simp only [nextBody, hawaited, hsame, if_neg hhead, if_neg hlong, hannounced, if_pos hbig]
    by_cases henough : reader.announced ≤ reader.dropHead.buffer.length
    · simp only [nextBody, hawaited, hsame, if_neg hhead, if_neg hlong, hannounced, if_neg hbig,
        hrest, takeBody_feed_of_le henough, takeBody_of_le henough, Prod.map, id]
    · simp only [nextBody, hawaited, hsame, if_neg hhead, if_neg hlong, hannounced, if_neg hbig,
        hrest, takeBody_of_lt (not_le.mp henough), Prod.map, id]
      rfl

theorem Blocked.feed (hblocked : reader.Blocked fault) (piece : Bytes) :
    (reader.feed piece).Blocked fault := by
  rw [Blocked, nextBody_feed, hblocked]

/-- A reader that found nothing would find nothing again. -/
theorem waits_of_none (hnone : reader.nextBody = (.ok none, next)) : next.Waits := by
  have hfeed := nextBody_feed reader []
  rw [feed_nil, hnone] at hfeed
  dsimp only at hfeed
  rw [feed_nil] at hfeed
  exact hfeed.symm

/-- A reader that meets a fault would meet it again. -/
theorem blocked_of_fault (hfault : reader.nextBody = (.error fault, next)) :
    next = reader ∧ reader.Blocked fault := by
  have hfeed := nextBody_feed reader []
  rw [feed_nil, hfault] at hfeed
  exact ⟨(Prod.mk.inj hfeed).2, hfault.trans hfeed⟩

/-- What is taken up from a longer stream starts with what is taken up from its start. Where that
    ends with a fault, nothing follows. -/
theorem drain_feed (reader : FrameReader) (piece : Bytes) :
    (reader.drain.2.Waits ∧
        (reader.feed piece).drain =
          (reader.drain.1 ++ (reader.drain.2.feed piece).drain.1,
            (reader.drain.2.feed piece).drain.2)) ∨
      ∃ fault packets, reader.drain.2.Blocked fault ∧
        reader.drain.1 = packets ++ [.error (.io fault)] ∧
        (reader.feed piece).drain = (reader.drain.1, reader.drain.2.feed piece) := by
  fun_induction drain reader with
  | case1 reader fault next hfault =>
    obtain ⟨rfl, hblocked⟩ := blocked_of_fault hfault
    exact Or.inr ⟨fault, [], hblocked, rfl, drain_of_fault (hblocked.feed piece)⟩
  | case2 reader next hnone =>
    left
    refine ⟨waits_of_none hnone, ?_⟩
    rw [List.nil_append]
    apply drain_congr
    rw [nextBody_feed, hnone]
  | case3 reader body next hbody _ packets last hlast ih =>
    have hmore : (reader.feed piece).nextBody = (.ok (some body), next.feed piece) := by
      rw [nextBody_feed, hbody]
    rw [hlast] at ih
    rw [drain_of_body hmore]
    rcases ih with ⟨hwaits, hdrain⟩ | ⟨fault, good, hblocked, hgood, hdrain⟩
    · left
      refine ⟨hwaits, ?_⟩
      rw [hdrain, List.cons_append]
    · right
      refine ⟨fault, packetOf body :: good, hblocked, ?_, ?_⟩
      · dsimp only at hgood ⊢
        rw [hgood, List.cons_append]
      · rw [hdrain]

end Feed

theorem takeIn_cons (piece : Bytes) (rest : List Bytes) (reader : FrameReader) :
    takeIn (piece :: rest) reader =
      ((reader.feed piece).drain.1 ++ (takeIn rest (reader.feed piece).drain.2).1,
        (takeIn rest (reader.feed piece).drain.2).2) :=
  rfl

/-- Behind a fault of the stream every piece brings the same fault and no packet. -/
theorem Blocked.takeIn (hblocked : reader.Blocked fault) (pieces : List Bytes) :
    FrameReader.takeIn pieces reader =
      (List.replicate pieces.length (.error (.io fault)), reader.feed pieces.flatten) := by
  induction pieces generalizing reader with
  | nil => rw [List.flatten_nil, feed_nil]; rfl
  | cons piece rest ih =>
    have hmore := hblocked.feed piece
    rw [takeIn_cons, drain_of_fault hmore, ih hmore, List.flatten_cons, feed_append]
    rfl

theorem Waits.not_blocked (hwaits : reader.Waits) : ¬ reader.Blocked fault := by
  intro hblocked
  cases hblocked.symm.trans hwaits

/-- Pieces give what the whole stream gives. Only the fault of the stream, if it has one, comes again
    with every piece behind it. -/
theorem takeIn_spec (hwaits : reader.Waits) (pieces : List Bytes) :
    ((reader.feed pieces.flatten).drain.2.Waits ∧
        takeIn pieces reader = (reader.feed pieces.flatten).drain) ∨
      ∃ fault packets count, (reader.feed pieces.flatten).drain.2.Blocked fault ∧
        (reader.feed pieces.flatten).drain.1 = packets ++ [.error (.io fault)] ∧
        (takeIn pieces reader).1 =
          packets ++ List.replicate (count + 1) (.error (.io fault)) := by
  induction pieces generalizing reader with
  | nil =>
    left
    rw [List.flatten_nil, feed_nil, drain_of_none hwaits]
    exact ⟨hwaits, rfl⟩
  | cons piece rest ih =>
    rw [takeIn_cons, List.flatten_cons, feed_append]
    rcases drain_feed (reader.feed piece) rest.flatten with
      ⟨hmiddle, hdrain⟩ | ⟨fault, good, hblocked, hgood, hdrain⟩
    · rw [hdrain]
      rcases ih hmiddle with ⟨hlast, hrest⟩ | ⟨fault, packets, count, hlast, hpackets, hrest⟩
      · left
        refine ⟨hlast, ?_⟩
        rw [hrest]
      · right
        refine ⟨fault, (reader.feed piece).drain.1 ++ packets, count, hlast, ?_, ?_⟩
        · rw [hpackets, List.append_assoc]
        · rw [hrest, List.append_assoc]
    · right
      refine ⟨fault, good, rest.length, ?_, ?_, ?_⟩
      · rw [hdrain]
        exact hblocked.feed rest.flatten
      · rw [hdrain, hgood]
      · rw [hblocked.takeIn, hgood, List.append_assoc, List.replicate_succ]
        rfl

section Frames

variable {bodies : List Bytes} {head : Bytes}

/-- Frames in a row give their bodies in order, whatever follows them. -/
theorem drain_frames (hlength : ∀ body ∈ bodies, body.length ≤ Frame.maxLength) (rest : Bytes) :
    (feed {} (bodies.flatMap Frame.wrap ++ rest)).drain =
      (bodies.map Packet.decode ++ (feed {} rest).drain.1, (feed {} rest).drain.2) := by
  induction bodies with
  | nil => rfl
  | cons body others ih =>
    have hbody := nextBody_feed_wrap (hlength body List.mem_cons_self)
    have hnext : (feed {} (Frame.wrap body ++ (others.flatMap Frame.wrap ++ rest))).nextBody =
        (.ok (some body), feed {} (others.flatMap Frame.wrap ++ rest)) := by
      rw [feed_append, nextBody_feed, hbody]
    have hothers := ih fun other hmem => hlength other (List.mem_cons_of_mem body hmem)
    rw [List.flatMap_cons, List.append_assoc, drain_of_body hnext, hothers]
    rfl

/-- A length that is too big is never taken for that of a body. -/
theorem blocked_of_oversize (hhead : head.length = Frame.headLength)
    (hbig : Frame.maxLength < Bytes.toNatBE head) (rest : Bytes) :
    (feed {} (head ++ rest)).Blocked .frameTooBig := by
  have henough : ¬ (feed {} (head ++ rest)).buffer.length < Frame.headLength := by
    simp only [feed, List.nil_append, List.length_append]
    omega
  have hannounced : (feed {} (head ++ rest)).announced = Bytes.toNatBE head := by
    simp only [announced, feed, List.nil_append, ← hhead, List.take_left]
  have hawaited : (feed {} (head ++ rest)).awaited = none := rfl
  simp only [Blocked, nextBody, hawaited, if_neg henough, hannounced, if_pos hbig]

theorem waits_idle : Waits {} :=
  rfl

variable {pieces : List Bytes}

/-- Wherever frames in a row are cut, their bodies are taken up in order. -/
theorem takeIn_frames (hlength : ∀ body ∈ bodies, body.length ≤ Frame.maxLength)
    (hcut : pieces.flatten = bodies.flatMap Frame.wrap) :
    takeIn pieces {} = (bodies.map Packet.decode, {}) := by
  have hdrain := drain_frames hlength []
  rw [List.append_nil, feed_nil, drain_idle, List.append_nil, ← hcut] at hdrain
  rcases takeIn_spec waits_idle pieces with ⟨-, hall⟩ | ⟨fault, packets, count, hblocked, -⟩
  · rw [hall, hdrain]
  · rw [hdrain] at hblocked
    exact absurd hblocked waits_idle.not_blocked

/-- Behind a length that is too big every piece brings the same fault. -/
theorem takeIn_oversize {rest : Bytes} (hlength : ∀ body ∈ bodies, body.length ≤ Frame.maxLength)
    (hhead : head.length = Frame.headLength) (hbig : Frame.maxLength < Bytes.toNatBE head)
    (hcut : pieces.flatten = bodies.flatMap Frame.wrap ++ (head ++ rest)) :
    ∃ count last, takeIn pieces {} =
      (bodies.map Packet.decode ++ List.replicate (count + 1) (.error (.io .frameTooBig)), last) := by
  have hoversize := blocked_of_oversize hhead hbig rest
  have hdrain := drain_frames hlength (head ++ rest)
  rw [drain_of_fault hoversize, ← hcut] at hdrain
  rcases takeIn_spec waits_idle pieces with ⟨hwaits, -⟩ | ⟨fault, packets, count, -, hgood, hall⟩
  · rw [hdrain] at hwaits
    exact absurd hoversize hwaits.not_blocked
  · rw [hdrain] at hgood
    obtain ⟨rfl, hfault⟩ := List.append_inj' hgood rfl
    rw [← List.singleton_inj.mp hfault] at hall
    exact ⟨count, _, Prod.ext hall rfl⟩

end Frames

end FrameReader

/-- The frames of packets one behind the other. -/
def Frame.writeAll (packets : List Packet) (out : Bytes) : Bytes :=
  packets.foldl (fun out packet => (write packet out).2) out

theorem Frame.writeAll_eq {packets : List Packet}
    (hlength : ∀ packet ∈ packets, packet.encodedLength ≤ maxLength) (out : Bytes) :
    writeAll packets out = out ++ (packets.map Packet.layout).flatMap wrap := by
  induction packets generalizing out with
  | nil => exact (List.append_nil out).symm
  | cons packet rest ih =>
    have hfits := not_lt.mpr (hlength packet List.mem_cons_self)
    have hrest := ih fun other hmem => hlength other (List.mem_cons_of_mem packet hmem)
    rw [writeAll, List.foldl_cons, write_eq, if_neg hfits, ← writeAll, hrest, List.map_cons,
      List.flatMap_cons, List.append_assoc]

/-- A packet that fits into a frame is laid out whole, with its length in front. -/
theorem Frame.write_of_le {packet : Packet} (hfits : packet.encodedLength ≤ maxLength) (out : Bytes) :
    packet.encode = .ok packet.layout ∧ packet.layout.length = packet.encodedLength ∧
      write packet out =
        (.ok (), out ++ (Bytes.ofNatBE headLength packet.encodedLength ++ packet.layout)) := by
  have htopic := not_lt.mpr (topic_length_le hfits)
  refine ⟨if_neg htopic, packet.length_layout, ?_⟩
  rw [write_eq, if_neg (not_lt.mpr hfits), wrap, packet.length_layout]

namespace FrameReader

/-- Packets that were written are taken up again. -/
theorem takeIn_writeAll {packets : List Packet} {pieces : List Bytes}
    (hfits : ∀ packet ∈ packets, packet.Encodable ∧ packet.encodedLength ≤ Frame.maxLength)
    (hcut : pieces.flatten = Frame.writeAll packets []) :
    takeIn pieces {} = (packets.map .ok, {}) := by
  rw [Frame.writeAll_eq fun packet hmem => (hfits packet hmem).2] at hcut
  have hlength : ∀ body ∈ packets.map Packet.layout, body.length ≤ Frame.maxLength := by
    intro body hmem
    obtain ⟨packet, hpacket, rfl⟩ := List.mem_map.mp hmem
    rw [packet.length_layout]
    exact (hfits packet hpacket).2
  rw [takeIn_frames hlength hcut, List.map_map]
  congr 1
  apply List.map_congr_left
  intro packet hmem
  exact Packet.decode_layout (hfits packet hmem).1

/-- Wherever a stream of frames is cut, the reader takes up the packet, or else the fault, of every
    body in order and nothing is left. A length that is too big brings a fault and never a packet. A
    packet is written with its length in front or not at all, so that packets are read as they were
    written. -/
theorem takeIn_any_cut :
    (∀ (bodies pieces : List Bytes), (∀ body ∈ bodies, body.length ≤ Frame.maxLength) →
      pieces.flatten = bodies.flatMap Frame.wrap →
        takeIn pieces {} = (bodies.map Packet.decode, {})) ∧
    (∀ (bodies pieces : List Bytes) (head rest : Bytes),
      (∀ body ∈ bodies, body.length ≤ Frame.maxLength) →
      head.length = Frame.headLength → Frame.maxLength < Bytes.toNatBE head →
      pieces.flatten = bodies.flatMap Frame.wrap ++ (head ++ rest) →
        ∃ count last, takeIn pieces {} =
          (bodies.map Packet.decode ++ List.replicate (count + 1) (.error (.io .frameTooBig)),
            last)) ∧
    (∀ (packet : Packet) (out : Bytes),
      (packet.encodedLength ≤ Frame.maxLength →
        packet.encode = .ok packet.layout ∧ packet.layout.length = packet.encodedLength ∧
          Frame.write packet out = (.ok (), out ++
            (Bytes.ofNatBE Frame.headLength packet.encodedLength ++ packet.layout))) ∧
      (Frame.maxLength < packet.encodedLength →
        Frame.write packet out = (.error (.frameTooLarge packet.encodedLength), out))) ∧
    (∀ (packets : List Packet) (pieces : List Bytes),
      (∀ packet ∈ packets, packet.Encodable ∧ packet.encodedLength ≤ Frame.maxLength) →
      pieces.flatten = Frame.writeAll packets [] →
        takeIn pieces {} = (packets.map .ok, {})) := by
  refine ⟨?_, ?_, ?_, ?_⟩
  · intro bodies pieces hlength hcut
    exact takeIn_frames hlength hcut
  · intro bodies pieces head rest hlength hhead hbig hcut
    exact takeIn_oversize hlength hhead hbig hcut
  · intro packet out
    refine ⟨fun hfits => Frame.write_of_le hfits out, fun hlong => ?_⟩
    rw [Frame.write_eq, if_pos hlong]
  · intro packets pieces hfits hcut
    exact takeIn_writeAll hfits hcut

/-- Cuts inside a length, right behind one and inside a body, around two bodies that are no packets;
    a length that is too big; a packet that is; and two packets that go through. -/
theorem takeIn_across_cuts :
    takeIn [[0, 0, 0], [], [1, 0xff, 0, 0, 0, 0, 0, 0], [0, 3, 0x20, 1], [97]] {} =
        ([.error (.malformed (.messageKind 7)), .error (.truncated .emptyPacket), .ok (.ack [97])],
          {}) ∧
      (∃ count last, takeIn [[0, 0, 0, 1, 0xff, 8], [0, 0, 1, 0x20]] {} =
        ([.error (.malformed (.messageKind 7))] ++
          List.replicate (count + 1) (.error (.io .frameTooBig)), last)) ∧
      (∃ data : Bytes, data.length = Frame.maxLength ∧
        Frame.write (.publish 0 [97] data) [5] = (.error (.frameTooLarge (4 + data.length)), [5])) ∧
      takeIn [[0, 0], [0, 5, 0, 7, 1, 97, 1, 0, 0, 0, 3, 0x20], [1, 97]] {} =
        ([.ok (.publish 7 [97] [1]), .ok (.ack [97])], {}) := by
  obtain ⟨hcut, hoversize, hwrite, hpackets⟩ := takeIn_any_cut
  refine ⟨hcut [[0xff], [], [0x20, 1, 97]] _ (by decide) (by decide), ?_, ?_, ?_⟩
  · exact hoversize [[0xff]] _ [8, 0, 0, 1] [0x20] (by decide) (by decide) (by decide) (by decide)
  · obtain ⟨data, hdata⟩ : ∃ data : Bytes, data.length = Frame.maxLength :=
      ⟨List.replicate Frame.maxLength 0, List.length_replicate⟩
    have hlength : (Packet.publish 0 [97] data).encodedLength = 4 + data.length := by
      have hwidths : 1 + FixedWidth.width 0 + (FixedWidth.width 1 + 1) = 4 := by decide
      exact congrArg (· + data.length) hwidths
    refine ⟨data, hdata, ?_⟩
    rw [← hlength]
    exact (hwrite _ [5]).2 (by omega)
  · apply hpackets [.publish 7 [97] [1], .ack [97]]
    · intro packet hmem
      rcases List.mem_pair.mp hmem with rfl | rfl
      · exact ⟨⟨by decide, by decide⟩, by decide⟩
      · exact ⟨⟨by decide, trivial⟩, by decide⟩
    · decide

end FrameReader

end ReplicatedLog
