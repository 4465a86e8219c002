import Statsd.Datagram
import Statsd.Proofs.Bytes
import Statsd.Proofs.Sink.Request

/-!
# Statsd.Proofs.Batch.Partition — batching cuts the messages into groups

The packets that a sink attempts, and behind them what it keeps, are its
messages in order, cut into groups and each group joined by line feeds.

* `Group limit g` is what holds of a group that goes out, `Open limit g` of the
  one that is kept; `Batch.Holds` ties a batch to the group it keeps.
* **Step**: `push_partition` and `flush_partition`, the first by the two
  choices that taking a message makes (does it fit, is it as large as a packet).
* **Run**: `handleAll_partition`, for any requests from any batch.
* `batch_partition` states this for a sink from its start, over any transport.
-/

namespace Statsd

/-! ## Groups -/

/-- A message that the encoder can write: it has bytes and at least one line. -/
def Packet.Sound (m : Packet) : Prop :=
  m.data ≠ ByteArray.empty ∧ 0 < m.lines

instance (m : Packet) : Decidable m.Sound := inferInstanceAs (Decidable (_ ∧ _))

/-- How many lines some packets hold. -/
def lineCount : List Packet → Nat
  | [] => 0
  | p :: rest => p.lines + lineCount rest

theorem lineCount_append (ps qs : List Packet) :
    lineCount (ps ++ qs) = lineCount ps + lineCount qs := by
  induction ps with
  | nil => exact (Nat.zero_add _).symm
  | cons p ps ih => rw [List.cons_append, lineCount, lineCount, ih, Nat.add_assoc]

/-- The packet that holds some messages: their bytes with a line feed between
each two, and all their lines. -/
def Packet.join (g : List Packet) : Packet :=
  ⟨joined (g.map (·.data)), lineCount g⟩

theorem Packet.join_singleton (m : Packet) : Packet.join [m] = m := rfl

namespace Batch

/-- A group of messages that goes out as one packet. Without a limit it is a
single message. With one, it has the size of a packet at most if it has two
messages or more, and a message as large as a packet is alone. -/
def Group : Option Nat → List Packet → Prop
  | none, g => g.length = 1
  | some limit, g =>
    g ≠ [] ∧ (2 ≤ g.length → (Packet.join g).data.size ≤ limit) ∧
      ∀ m ∈ g, limit ≤ m.data.size → g = [m]

instance : (limit : Option Nat) → (g : List Packet) → Decidable (Group limit g)
  | none, g => inferInstanceAs (Decidable (g.length = 1))
  | some _, _ => inferInstanceAs (Decidable (_ ∧ _ ∧ _))

/-- A group of messages that is kept. Without a limit nothing is kept. With
one, it has the size of a packet at most, and no message of it has that size. -/
def Open : Option Nat → List Packet → Prop
  | none, g => g = []
  | some limit, g => (Packet.join g).data.size ≤ limit ∧ ∀ m ∈ g, m.data.size < limit

/-- A batch that keeps a group of sound messages. -/
structure Holds (b : Batch) (g : List Packet) : Prop where
  packet : b.packet = Packet.join g
  sound : ∀ m ∈ g, m.Sound

theorem group_ne_nil {limit : Option Nat} {g : List Packet} (h : Group limit g) : g ≠ [] := by
  cases limit with
  | none =>
      intro hg
      have hlen : g.length = 1 := h
      rw [hg] at hlen
      cases hlen
  | some limit => exact h.1

theorem group_singleton (limit : Option Nat) (m : Packet) : Group limit [m] := by
  cases limit with
  | none => rfl
  | some limit =>
      refine ⟨List.cons_ne_nil m [], ?_, ?_⟩
      · intro h
        exact absurd h (by simp)
      · intro m' hm' _
        rw [List.mem_singleton.mp hm']

/-- What is kept can go out. -/
theorem group_of_open {limit : Nat} {g : List Packet} (hne : g ≠ []) (h : Open (some limit) g) :
    Group (some limit) g := by
  refine ⟨hne, fun _ => h.1, ?_⟩
  intro m hm hlarge
  exact absurd (h.2 m hm) (Nat.not_lt.mpr hlarge)

theorem open_nil (limit : Option Nat) : Open limit [] := by
  cases limit with
  | none => rfl
  | some limit => exact ⟨Nat.zero_le limit, fun _ hm => absurd hm List.not_mem_nil⟩

/-! ## Batches and the groups they keep -/

theorem holds_empty : Batch.empty.Holds [] :=
  ⟨rfl, fun _ hm => absurd hm List.not_mem_nil⟩

/-- A batch counts no line exactly if it keeps no message. -/
theorem Holds.isEmpty_iff {b : Batch} {g : List Packet} (h : b.Holds g) :
    b.isEmpty = true ↔ g = [] := by
  have hlines : b.lines = lineCount g := congrArg Packet.lines h.packet
  rw [Batch.isEmpty, beq_iff_eq, hlines]
  cases g with
  | nil => exact ⟨fun _ => rfl, fun _ => rfl⟩
  | cons m rest =>
      have hpos : 0 < m.lines := (h.sound m (List.mem_cons_self ..)).2
      constructor
      · intro hsum
        rw [lineCount] at hsum
        omega
      · intro hnil
        cases hnil

/-- A batch has no byte exactly if it keeps no message. -/
theorem Holds.data_empty_iff {b : Batch} {g : List Packet} (h : b.Holds g) :
    b.data = ByteArray.empty ↔ g = [] := by
  have hdata : b.data = joined (g.map (·.data)) := congrArg Packet.data h.packet
  constructor
  · intro hempty
    cases g with
    | nil => rfl
    | cons m rest =>
        have hm : m.data ≠ ByteArray.empty := (h.sound m (List.mem_cons_self ..)).1
        rw [hdata] at hempty
        cases rest with
        | nil => exact absurd hempty hm
        | cons m' rest =>
            rw [List.map_cons, List.map_cons, joined, ByteArray.append_eq_empty_iff] at hempty
            exact absurd hempty.1 (push_ne_empty m.data lineFeed)
  · intro hg
    rw [hdata, hg]
    rfl

/-- A message behind those that are kept. -/
theorem Holds.append {b : Batch} {g : List Packet} (h : b.Holds g) {m : Packet}
    (hm : m.Sound) : (b.append m).Holds (g ++ [m]) := by
  have hdata : b.data = joined (g.map (·.data)) := congrArg Packet.data h.packet
  have hlines : b.lines = lineCount g := congrArg Packet.lines h.packet
  constructor
  · by_cases hg : g = []
    · have hempty : b.isEmpty = true := h.isEmpty_iff.mpr hg
      subst hg
      simp only [Batch.append, Batch.packet, hempty, if_true, hdata, hlines, List.nil_append,
        Packet.join_singleton, List.map_nil, joined, lineCount, Nat.zero_add,
        ByteArray.empty_append]
    · have hempty : b.isEmpty = false := by
        rw [← Bool.not_eq_true, h.isEmpty_iff]
        exact hg
      have hmap : g.map (·.data) ≠ [] := by simpa using hg
      simp only [Batch.append, Batch.packet, hempty, Packet.join, List.map_append, List.map_cons,
        List.map_nil, lineCount_append, joined_concat hmap, hdata, hlines]
      rfl
  · intro m' hm'
    rcases List.mem_append.mp hm' with hold | hnew
    · exact h.sound m' hold
    · rw [List.mem_singleton.mp hnew]
      exact hm

/-- Whether a message fits behind those that are kept. -/
theorem Holds.fits_iff {b : Batch} {g : List Packet} (h : b.Holds g) (limit : Nat)
    (m : Packet) :
    b.fits limit m = true ↔ g = [] ∨ (Packet.join g).data.size + 1 + m.data.size ≤ limit := by
  have hdata : b.data = (Packet.join g).data := congrArg Packet.data h.packet
  rw [Batch.fits, Bool.or_eq_true, h.isEmpty_iff, decide_eq_true_eq, hdata]

/-! ## One request -/

/-- What becomes of some messages: `sent` are the groups that have gone out, and
`kept` is the group that is kept. -/
structure Partition (limit : Option Nat) (after : Batch × List Packet) (messages : List Packet)
    (sent : List (List Packet)) (kept : List Packet) : Prop where
  packets : after.2 = sent.map Packet.join
  holds : after.1.Holds kept
  sent_groups : ∀ g ∈ sent, Group limit g
  kept_open : Open limit kept
  all : sent.flatten ++ kept = messages

/-- A message of less than the packet size, behind a group that it fits. -/
theorem open_append {g : List Packet} {limit : Nat} (hopen : Open (some limit) g) {m : Packet}
    (hfits : g = [] ∨ (Packet.join g).data.size + 1 + m.data.size ≤ limit)
    (hsmall : m.data.size < limit) : Open (some limit) (g ++ [m]) := by
  constructor
  · rcases hfits with hg | hsize
    · rw [hg, List.nil_append, Packet.join_singleton]
      exact Nat.le_of_lt hsmall
    · by_cases hg : g = []
      · rw [hg, List.nil_append, Packet.join_singleton]
        exact Nat.le_of_lt hsmall
      · have hmap : g.map (·.data) ≠ [] := by simpa using hg
        have hjoin : (Packet.join (g ++ [m])).data.size =
            (Packet.join g).data.size + 1 + m.data.size := by
          rw [Packet.join, List.map_append, List.map_cons, List.map_nil, size_joined_concat hmap]
          rfl
        rw [hjoin]
        exact hsize
  · intro m' hm'
    rcases List.mem_append.mp hm' with hold | hnew
    · exact hopen.2 m' hold
    · rw [List.mem_singleton.mp hnew]
      exact hsmall

/-- All that taking a message can come to: it goes out at once, it is joined to
what is kept, or what is kept goes out first and the message goes out or is kept. -/
theorem push_cases {b : Batch} {g : List Packet} (h : b.Holds g) {limit : Nat}
    (hopen : Open (some limit) g) {m : Packet} (hm : m.Sound) :
    let after := b.push limit m
    let tooLarge := limit < (Packet.join g).data.size + 1 + m.data.size
    (g = [] ∧ limit ≤ m.data.size ∧ Partition (some limit) after (g ++ [m]) [[m]] []) ∨
    Partition (some limit) after (g ++ [m]) [] (g ++ [m]) ∨
    (g ≠ [] ∧ tooLarge ∧ limit ≤ m.data.size ∧
      Partition (some limit) after (g ++ [m]) [g, [m]] []) ∨
    (g ≠ [] ∧ tooLarge ∧ Partition (some limit) after (g ++ [m]) [g] [m]) := by
  intro after tooLarge
  by_cases hfits : b.fits limit m = true
  · have hroom := (h.fits_iff limit m).mp hfits
    by_cases hlarge : limit ≤ m.data.size
    · -- only an empty batch has room for such a message, which goes out at once
      left
      have hg : g = [] := by
        rcases hroom with hg | hsize
        · exact hg
        · omega
      have hpush : after = (b, [m]) := by
        simp only [after, Batch.push, hfits, hlarge, if_true, List.nil_append]
      subst hg
      rw [hpush]
      exact ⟨rfl, hlarge, rfl, h, by simpa using group_singleton _ m, open_nil _, rfl⟩
    · -- the message is joined to what is kept
      right
      left
      have hpush : after = (b.append m, []) := by
        simp only [after, Batch.push, hfits, hlarge, if_true, if_false]
      rw [hpush]
      exact ⟨rfl, h.append hm, by simp, open_append hopen hroom (Nat.lt_of_not_le hlarge), rfl⟩
  · -- what is kept goes out first
    right
    right
    obtain ⟨hg, hroom⟩ := not_or.mp (mt (h.fits_iff limit m).mpr hfits)
    have hsize : tooLarge := Nat.lt_of_not_le hroom
    have hsent : Group (some limit) g := group_of_open hg hopen
    by_cases hlarge : limit ≤ m.data.size
    · left
      have hpush : after = (Batch.empty, [b.packet, m]) := by
        simp only [after, Batch.push, hfits, hlarge, if_true, Bool.false_eq_true, if_false]
        rfl
      rw [hpush, h.packet]
      refine ⟨hg, hsize, hlarge, rfl, holds_empty, ?_, open_nil _, by simp⟩
      intro g' hg'
      rcases List.mem_cons.mp hg' with heq | hrest
      · rw [heq]
        exact hsent
      · rw [List.mem_singleton.mp hrest]
        exact group_singleton _ m
    · right
      have hpush : after = (Batch.empty.append m, [b.packet]) := by
        simp only [after, Batch.push, hfits, hlarge, Bool.false_eq_true, if_false]
      have hkept : (Batch.empty.append m).Holds ([] ++ [m]) := holds_empty.append hm
      rw [hpush, h.packet]
      exact ⟨hg, hsize, rfl, hkept, by simpa using hsent,
        open_append (open_nil _) (Or.inl rfl) (Nat.lt_of_not_le hlarge), by simp⟩

/-- Taking a message goes on with the partition. -/
theorem push_partition {b : Batch} {g : List Packet} (h : b.Holds g) {limit : Nat}
    (hopen : Open (some limit) g) {m : Packet} (hm : m.Sound) :
    ∃ sent kept, Partition (some limit) (b.push limit m) (g ++ [m]) sent kept := by
  rcases push_cases h hopen hm with ⟨-, -, hpart⟩ | hpart | ⟨-, -, -, hpart⟩ | ⟨-, -, hpart⟩
  · exact ⟨_, _, hpart⟩
  · exact ⟨_, _, hpart⟩
  · exact ⟨_, _, hpart⟩
  · exact ⟨_, _, hpart⟩

/-- Sending what is kept. -/
theorem flush_partition {b : Batch} {g : List Packet} (h : b.Holds g) {limit : Nat}
    (hopen : Open (some limit) g) :
    ∃ sent, Partition (some limit) b.flush g sent [] := by
  by_cases hg : g = []
  · have hflush : b.flush = (b, []) := by
      simp only [Batch.flush, h.isEmpty_iff.mpr hg, if_true]
    rw [hflush]
    exact ⟨[], rfl, hg ▸ h, by simp, open_nil _, hg.symm⟩
  · have hempty : b.isEmpty = false := by
      rw [← Bool.not_eq_true, h.isEmpty_iff]
      exact hg
    have hflush : b.flush = (Batch.empty, [b.packet]) := by
      simp only [Batch.flush, hempty, Bool.false_eq_true, if_false]
    rw [hflush, h.packet]
    exact ⟨[g], rfl, holds_empty, by simpa using group_of_open hg hopen, open_nil _, by simp⟩

/-- Any one request. -/
theorem handle_partition {limit : Option Nat} {b : Batch} {g : List Packet} (h : b.Holds g)
    (hopen : Open limit g) (r : Request) (hr : ∀ m ∈ r.message?, m.Sound) :
    ∃ sent kept, Partition limit (b.handle limit r) (g ++ r.message?.toList) sent kept := by
  have hidle : Partition limit (b, []) (g ++ []) [] g :=
    ⟨rfl, h, by simp, hopen, (List.append_nil g).symm⟩
  cases r with
  | emit m =>
      cases limit with
      | none =>
          -- without a limit the message is a group of its own
          have hg : g = [] := hopen
          subst hg
          exact ⟨[[m]], [], rfl, h, by simpa using group_singleton none m, open_nil none, rfl⟩
      | some limit => exact push_partition h hopen (hr m rfl)
  | flush =>
      cases limit with
      | none => exact ⟨[], g, hidle⟩
      | some limit =>
          rcases flush_partition h hopen with ⟨sent, hflush⟩
          exact ⟨sent, [], (List.append_nil g).symm ▸ hflush⟩
  | refuse => exact ⟨[], g, hidle⟩
  | leaveOut => exact ⟨[], g, hidle⟩
  | wait nanos => exact ⟨[], g, hidle⟩

/-! ## Runs -/

/-- What is kept at first is the group that the later part starts with. -/
theorem Partition.trans {limit : Option Nat} {first later : Batch × List Packet}
    {messages more : List Packet} {sent sent' : List (List Packet)} {kept kept' : List Packet}
    (h : Partition limit first messages sent kept)
    (h' : Partition limit later (kept ++ more) sent' kept') :
    Partition limit (later.1, first.2 ++ later.2) (messages ++ more) (sent ++ sent') kept' := by
  refine ⟨?_, h'.holds, ?_, h'.kept_open, ?_⟩
  · rw [List.map_append, ← h.packets, ← h'.packets]
  · intro g hg
    rcases List.mem_append.mp hg with hsent | hmore
    · exact h.sent_groups g hsent
    · exact h'.sent_groups g hmore
  · calc (sent ++ sent').flatten ++ kept'
        = sent.flatten ++ (sent'.flatten ++ kept') := by
          rw [List.flatten_append, List.append_assoc]
      _ = (sent.flatten ++ kept) ++ more := by rw [h'.all, List.append_assoc]
      _ = messages ++ more := by rw [h.all]

/-- Any requests: what has gone out and what is kept are the messages, cut into groups. -/
theorem handleAll_partition {limit : Option Nat} {b : Batch} {g : List Packet} (h : b.Holds g)
    (hopen : Open limit g) (requests : List Request)
    (hsound : ∀ m ∈ Request.messages requests, m.Sound) :
    ∃ sent kept, Partition limit (b.handleAll limit requests) (g ++ Request.messages requests)
      sent kept := by
  induction requests generalizing b g with
  | nil => exact ⟨[], g, rfl, h, by simp, hopen, (List.append_nil g).symm⟩
  | cons r rest ih =>
      rw [Request.messages_cons] at hsound ⊢
      have hr : ∀ m ∈ r.message?, m.Sound := by
        intro m hm
        exact hsound m (List.mem_append_left _ (Option.mem_toList.mpr hm))
      rcases handle_partition h hopen r hr with ⟨sent, kept, hstep⟩
      rcases ih hstep.holds hstep.kept_open fun m hm => hsound m (List.mem_append_right _ hm) with
        ⟨more, last, hrun⟩
      rw [← List.append_assoc]
      exact ⟨sent ++ more, last, hstep.trans hrun⟩

/-- A batch that keeps no message is the empty one. -/
theorem eq_empty_of_holds {b : Batch} (h : b.Holds []) : b = Batch.empty := by
  rcases b with ⟨data, lines⟩
  have hdata : data = ByteArray.empty := h.data_empty_iff.mpr rfl
  have hlines : lines = 0 := congrArg Packet.lines h.packet
  rw [hdata, hlines]
  rfl

/-- A flush leaves nothing, with a limit or without one. -/
theorem handle_flush_empty {limit : Option Nat} {b : Batch} {g : List Packet} (h : b.Holds g)
    (hopen : Open limit g) : (b.handle limit .flush).1 = Batch.empty := by
  cases limit with
  | none =>
      have hg : g = [] := hopen
      subst hg
      exact eq_empty_of_holds h
  | some limit =>
      rcases flush_partition h hopen with ⟨last, hflush⟩
      exact eq_empty_of_holds hflush.holds

/-- What a batch would send now. -/
def pending (b : Batch) : List Packet :=
  if b.data.isEmpty then [] else [b.packet]

theorem pending_of_holds {b : Batch} {g : List Packet} (h : b.Holds g) :
    b.pending = if g = [] then [] else [Packet.join g] := by
  rw [pending, h.packet]
  have hiff : b.data.isEmpty = true ↔ g = [] := Statsd.isEmpty_iff.trans h.data_empty_iff
  by_cases hg : g = []
  · rw [if_pos hg, if_pos (hiff.mpr hg)]
  · rw [if_neg hg, if_neg (mt hiff.mp hg)]

/-- Batching is a partition in order. For any packet size and any requests,
over any transport:

* the packets attempted, and behind them what is kept, are the messages cut
  into groups (`Group`), each joined with single line feeds;
* what is kept has the size of a packet at most; it has no byte exactly if it
  counts no line, and a flush leaves nothing;
* over another transport, where other packets fail, the same packets are
  attempted and the same is kept after every request. -/
theorem batch_partition {σ τ : Type} [Transport σ] [Transport τ] (limit : Nat) (t : σ) (u : τ)
    (requests : List Request) (hsound : ∀ m ∈ Request.messages requests, m.Sound) :
    let s := Sink.init (some limit) t
    let after := (s.handleAll requests).1
    let attempted := (s.handleAll requests).2.map (·.packet)
    (∃ groups : List (List Packet), groups.flatten = Request.messages requests ∧
      (∀ g ∈ groups, Group (some limit) g) ∧
      attempted ++ after.batch.pending = groups.map Packet.join) ∧
    after.batch.data.size ≤ limit ∧
    (after.batch.data = ByteArray.empty ↔ after.batch.lines = 0) ∧
    (after.handle .flush).1.batch = Batch.empty ∧
    s.trace requests = (Sink.init (some limit) u).trace requests := by
  intro s after attempted
  rcases handleAll_partition holds_empty (open_nil (some limit)) requests hsound with
    ⟨sent, kept, h⟩
  have hrun := Sink.handleAll_batch s requests
  have hbatch : after.batch = (Batch.empty.handleAll (some limit) requests).1 := hrun.1
  have hlimit : after.limit = some limit := hrun.2.1
  have hattempted : attempted = sent.map Packet.join := hrun.2.2.trans h.packets
  have hholds : after.batch.Holds kept := hbatch ▸ h.holds
  refine ⟨?_, ?_, ?_, ?_, ?_⟩
  · -- what is kept is a last group, unless it is empty
    by_cases hkept : kept = []
    · refine ⟨sent, ?_, h.sent_groups, ?_⟩
      · simpa [hkept] using h.all
      · rw [hattempted, pending_of_holds hholds, if_pos hkept, List.append_nil]
    · refine ⟨sent ++ [kept], ?_, ?_, ?_⟩
      · simpa using h.all
      · intro g hg
        rcases List.mem_append.mp hg with hold | hlast
        · exact h.sent_groups g hold
        · rw [List.mem_singleton.mp hlast]
          exact group_of_open hkept h.kept_open
      · rw [hattempted, pending_of_holds hholds, if_neg hkept, List.map_append]
        rfl
  · have hdata : after.batch.data = (Packet.join kept).data := congrArg Packet.data hholds.packet
    rw [hdata]
    exact h.kept_open.1
  · rw [hholds.data_empty_iff, ← hholds.isEmpty_iff, Batch.isEmpty, beq_iff_eq]
  · rw [(Sink.handle_batch after .flush).1, hlimit]
    exact handle_flush_empty hholds h.kept_open
  · have hlimits : s.limit = (Sink.init (some limit) u).limit := rfl
    have hbatches : s.batch = (Sink.init (some limit) u).batch := rfl
    exact Sink.trace_eq hlimits hbatches requests

/-- Three messages of five bytes and packets of eleven: two fit exactly, the third
one goes out alone. Where the network takes at most ten bytes the first packet is
lost, and the same packets are attempted as where it takes eleven. -/
theorem batch_partition_exact_fit :
    let full : List Packet := [.ofString "a:1|c" 1, .ofString "a:2|c" 1]
    let rest : List Packet := [.ofString "a:3|c" 1]
    let requests := (full ++ rest).map Request.emit ++ [.flush]
    let link (most : Nat) : Datagram.Link :=
      (Datagram.Link.init ⟨"daemon", 8125, none⟩ 0).withSocket
        ⟨fun d => if d.size ≤ most then .ok d.size else .error .messageTooLong⟩
    let narrow := (Sink.init (some 11) (link 10)).handleAll requests
    let wide := (Sink.init (some 11) (link 11)).handleAll requests
    (∀ m ∈ Request.messages requests, m.Sound) ∧
      (Group (some 11) full ∧ Group (some 11) rest) ∧
      Packet.join full = .ofString "a:1|c\na:2|c" 2 ∧ (Packet.join full).data.size = 11 ∧
      narrow.2 = [⟨.join full, some (.system .messageTooLong)⟩, ⟨.join rest, none⟩] ∧
      wide.2 = [⟨.join full, none⟩, ⟨.join rest, none⟩] ∧
      narrow.1.transport.offered = [(Packet.join full).data, (Packet.join rest).data] ∧
      (Sink.init (some 11) (link 10)).trace requests =
        (Sink.init (some 11) (link 11)).trace requests := by
  intro full rest requests link narrow wide
  have hsound : ∀ m ∈ Request.messages requests, m.Sound := by decide +kernel
  refine ⟨hsound, ?_, ?_, ?_, ?_, ?_, ?_, ?_⟩
  · decide +kernel
  · decide +kernel
  · decide +kernel
  · -- what is attempted, read off the two runs
    decide +kernel
  · decide +kernel
  · decide +kernel
  · exact (batch_partition 11 (link 10) (link 11) requests hsound).2.2.2.2

end Batch

end Statsd
