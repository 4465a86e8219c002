import Mathlib.Data.List.Chain
import Mathlib.Order.Bounds.Defs
import Statsd.Link
import Statsd.Proofs.Batch.Partition

/-!
# Statsd.Proofs.Batch.Fewest — no other packing needs fewer packets

Messages are joined as they come, and what is kept goes out only when the next
message does not fit. Among all ways to cut the messages into consecutive
groups that can be packets, this one has the fewest groups.

* `Cut limit messages groups` is any such way, and `Tight` says of groups that
  none of them could have taken the first message of the next one.
* **Stays ahead**: `Tight.length_le`. A packet of another cut that begins no
  later than a tight group ends no later than it either.
* **Step** and **run**: taking a message keeps all groups tight
  (`push_greedy`), and so does taking any messages (`handleAll_greedy`).
-/

namespace Statsd

namespace Batch

/-! ## Cuts -/

/-- Messages that can be a packet: they have its size at most, or are only one. -/
def Packable (limit : Nat) (g : List Packet) : Prop :=
  (Packet.join g).data.size ≤ limit ∨ g.length = 1

/-- Messages cut into consecutive groups, each of which can be a packet. -/
structure Cut (limit : Nat) (messages : List Packet) (groups : List (List Packet)) : Prop where
  all : groups.flatten = messages
  nonempty : ∀ g ∈ groups, g ≠ []
  packable : ∀ g ∈ groups, Packable limit g

/-- A group that a message does not fit behind. -/
def Full (limit : Nat) (g : List Packet) (m : Packet) : Prop :=
  limit < (Packet.join (g ++ [m])).data.size

/-- No group could have taken the first message of the next one. -/
def Tight (limit : Nat) (groups : List (List Packet)) : Prop :=
  groups.IsChain fun g next => ∀ m ∈ next.head?, Full limit g m

/-- What goes out can be a packet. -/
theorem packable_of_group {limit : Nat} {g : List Packet} (h : Group (some limit) g) :
    Packable limit g := by
  by_cases hlength : 2 ≤ g.length
  · exact Or.inl (h.2.1 hlength)
  · have hpos : 0 < g.length := List.length_pos_iff.mpr h.1
    right
    omega

/-! ## Sizes -/

/-- A line feed behind a joined list makes it as large as the terminated one. -/
theorem size_join_add_one {g : List Packet} (hg : g ≠ []) :
    (Packet.join g).data.size + 1 = (terminated (g.map (·.data))).size := by
  have hmap : g.map (·.data) ≠ [] := mt List.map_eq_nil_iff.mp hg
  rw [← joined_push hmap, ByteArray.size_push]
  rfl

/-- More messages on either side make a packet larger. -/
theorem size_join_le (before : List Packet) {g : List Packet} (hg : g ≠ []) (behind : List Packet) :
    (Packet.join g).data.size ≤ (Packet.join (before ++ g ++ behind)).data.size := by
  have hall : before ++ g ++ behind ≠ [] := by
    intro hnil
    exact hg (List.append_eq_nil_iff.mp (List.append_eq_nil_iff.mp hnil).1).2
  have hsmall := size_join_add_one hg
  have hlarge := size_join_add_one hall
  rw [List.map_append, List.map_append, terminated_append, terminated_append,
    ByteArray.size_append, ByteArray.size_append] at hlarge
  omega

/-- A message behind others needs a line feed in between. -/
theorem size_join_concat {g : List Packet} (hg : g ≠ []) (m : Packet) :
    (Packet.join (g ++ [m])).data.size = (Packet.join g).data.size + 1 + m.data.size := by
  have hmap : g.map (·.data) ≠ [] := mt List.map_eq_nil_iff.mp hg
  rw [Packet.join, List.map_append, List.map_cons, List.map_nil, size_joined_concat hmap]
  rfl

/-- Nothing fits behind a message as large as a packet. -/
theorem full_of_large {limit : Nat} {m : Packet} (h : limit ≤ m.data.size) (next : Packet) :
    Full limit [m] next := by
  unfold Full
  rw [size_join_concat (List.cons_ne_nil m []), Packet.join_singleton]
  omega

/-- What holds a full group and its next message is too large for a packet. -/
theorem not_packable_of_full {limit : Nat} {g : List Packet} (hg : g ≠ []) {m : Packet}
    (h : Full limit g m) (before behind : List Packet) :
    ¬ Packable limit (before ++ g ++ m :: behind) := by
  have hassoc : before ++ g ++ m :: behind = before ++ (g ++ [m]) ++ behind := by simp
  have hne : g ++ [m] ≠ [] := List.append_ne_nil_of_left_ne_nil hg [m]
  have hsize := size_join_le before hne behind
  have hpos : 0 < g.length := List.length_pos_iff.mpr hg
  rw [hassoc]
  unfold Full at h
  rintro (hsmall | hlength)
  · omega
  · simp only [List.length_append, List.length_cons, List.length_nil] at hlength
    omega

/-! ## Tight groups stay ahead -/

/-- A member of concatenated lists is in one of them. -/
theorem exists_of_flatten_eq {α : Type} {lists : List (List α)} {front behind : List α} {a : α}
    (h : lists.flatten = front ++ a :: behind) :
    ∃ before x y later, lists = before ++ (x ++ a :: y) :: later ∧ y ++ later.flatten = behind := by
  rcases List.flatten_eq_append_iff.mp h with ⟨as, bs, rfl, -, hbs⟩ |
    ⟨as, x, c, y, later, rfl, -, hcs⟩
  · -- it is the first of its list
    rcases List.flatten_eq_cons_iff.mp hbs.symm with ⟨nils, y, later, rfl, -, hy⟩
    refine ⟨as ++ nils, [], y, later, ?_, hy.symm⟩
    rw [List.append_assoc, List.nil_append]
  · rw [List.cons_append, List.cons.injEq] at hcs
    rcases hcs with ⟨rfl, hcs⟩
    exact ⟨as, x, y, later, rfl, hcs.symm⟩

/-- Behind a tight group there is a message that does not fit, or nothing. -/
theorem Tight.full {limit : Nat} {g : List Packet} {rest : List (List Packet)}
    (h : Tight limit (g :: rest)) (hne : ∀ g ∈ rest, g ≠ []) {m : Packet} {behind : List Packet}
    (hflat : rest.flatten = m :: behind) : Full limit g m := by
  cases rest with
  | nil => cases hflat
  | cons next rest =>
      rcases List.exists_cons_of_ne_nil (hne next (List.mem_cons_self ..)) with ⟨first, tail, hnext⟩
      have hm : first = m := by
        rw [List.flatten_cons, hnext] at hflat
        exact (List.cons.inj hflat).1
      have hhead : m ∈ next.head? := by
        rw [hnext, hm]
        rfl
      exact (List.isChain_cons_cons.mp h).1 m hhead

/-- Other groups that hold the messages of tight groups, and perhaps some more in
front of them, are no fewer. -/
theorem Tight.length_le {limit : Nat} {groups others : List (List Packet)}
    (htight : Tight limit groups) (hne : ∀ g ∈ groups, g ≠ [])
    (hothers : ∀ g ∈ others, Packable limit g) {front : List Packet}
    (hflat : others.flatten = front ++ groups.flatten) : groups.length ≤ others.length := by
  induction groups generalizing others front with
  | nil => exact Nat.zero_le _
  | cons g rest ih =>
      have hg : g ≠ [] := hne g (List.mem_cons_self ..)
      have hrest : ∀ g ∈ rest, g ≠ [] := fun g' hg' => hne g' (List.mem_cons_of_mem g hg')
      rcases List.exists_cons_of_ne_nil hg with ⟨m, tail, hcons⟩
      -- the packet `x ++ m :: y` of the others holds the first message of `g`
      rw [List.flatten_cons, hcons, List.cons_append] at hflat
      rcases exists_of_flatten_eq hflat with ⟨before, x, y, later, rfl, hlater⟩
      -- it ends inside `g`, so the packets behind it hold all of the rest
      have hcovered : ∃ front', later.flatten = front' ++ rest.flatten := by
        rcases List.append_eq_append_iff.mp hlater with ⟨spare, -, hspare⟩ | ⟨spare, hy, hspare⟩
        · exact ⟨spare, hspare⟩
        · cases spare with
          | nil => exact ⟨[], hspare.symm⟩
          | cons next spare =>
              exfalso
              have hfull : Full limit g next := htight.full hrest hspare
              have hwhole : x ++ m :: y = x ++ g ++ next :: spare := by
                rw [hy, hcons, List.append_assoc, List.cons_append]
              have hpackable : Packable limit (x ++ m :: y) := hothers _ (by simp)
              rw [hwhole] at hpackable
              exact not_packable_of_full hg hfull x spare hpackable
      rcases hcovered with ⟨front', hfront⟩
      have hfit : ∀ g ∈ later, Packable limit g := by
        intro g' hg'
        apply hothers
        simp only [List.mem_append, List.mem_cons]
        exact Or.inr (Or.inr hg')
      have hcount : rest.length ≤ later.length := ih htight.tail hrest hfit hfront
      rw [List.length_append, List.length_cons, List.length_cons]
      omega

/-! ## Taking messages -/

/-- The group that is kept, unless it is empty. -/
def last (kept : List Packet) : List (List Packet) := if kept = [] then [] else [kept]

/-- The groups that have gone out and the one that is kept are tight, and if
nothing is kept, then no message fits behind the last one that has gone out. -/
structure Greedy (limit : Nat) (sent : List (List Packet)) (kept : List Packet) : Prop where
  tight : Tight limit (sent ++ last kept)
  closed : kept = [] → ∀ g ∈ sent.getLast?, ∀ m, Full limit g m

theorem last_of_ne_nil {kept : List Packet} (h : kept ≠ []) : last kept = [kept] := if_neg h

theorem greedy_nil (limit : Nat) : Greedy limit [] [] :=
  ⟨List.isChain_nil, fun _ _ hg => by cases hg⟩

/-- A new group behind a full one. -/
theorem Tight.concat {limit : Nat} {groups : List (List Packet)} (h : Tight limit groups)
    {m : Packet} (hfull : ∀ g ∈ groups.getLast?, Full limit g m) :
    Tight limit (groups ++ [[m]]) := by
  refine List.isChain_append.mpr ⟨h, List.isChain_singleton _, ?_⟩
  intro g hg next hnext m' hm'
  cases hnext
  cases hm'
  exact hfull g hg

/-- The last group may grow at its end. -/
theorem Tight.grow {limit : Nat} {groups : List (List Packet)} {g : List Packet}
    (h : Tight limit (groups ++ [g])) (hg : g ≠ []) (m : Packet) :
    Tight limit (groups ++ [g ++ [m]]) := by
  rcases List.isChain_append.mp h with ⟨hgroups, -, hnext⟩
  refine List.isChain_append.mpr ⟨hgroups, List.isChain_singleton _, ?_⟩
  intro g' hg' next hlast first hfirst
  cases hlast
  rw [List.head?_append_of_ne_nil g hg] at hfirst
  exact hnext g' hg' g rfl first hfirst

/-- Taking a message keeps all groups tight. -/
theorem push_greedy {b : Batch} {g : List Packet} (h : b.Holds g) {limit : Nat}
    (hopen : Open (some limit) g) {past : List (List Packet)} (hgreedy : Greedy limit past g)
    {m : Packet} (hm : m.Sound) :
    ∃ sent kept, Partition (some limit) (b.push limit m) (g ++ [m]) sent kept ∧
      Greedy limit (past ++ sent) kept := by
  have htight := hgreedy.tight
  -- with nothing kept, the message begins a group behind a closed one
  have hfirst : g = [] → Tight limit (past ++ [[m]]) := by
    intro hg
    rw [hg, last, if_pos rfl, List.append_nil] at htight
    exact htight.concat fun g' hg' => hgreedy.closed hg g' hg' m
  -- and with a group kept that it does not fit, behind that one
  have hbehind : g ≠ [] → limit < (Packet.join g).data.size + 1 + m.data.size →
      Tight limit (past ++ [g] ++ [[m]]) := by
    intro hg hsize
    rw [last_of_ne_nil hg] at htight
    apply htight.concat
    intro g' hg'
    rw [List.getLast?_concat, Option.mem_some_iff] at hg'
    rw [← hg', Full, size_join_concat hg]
    exact hsize
  -- a message as large as a packet closes its group
  have hclosed : ∀ groups : List (List Packet), limit ≤ m.data.size →
      ∀ g' ∈ (groups ++ [[m]]).getLast?, ∀ next, Full limit g' next := by
    intro groups hlarge g' hg' next
    rw [List.getLast?_concat, Option.mem_some_iff] at hg'
    rw [← hg']
    exact full_of_large hlarge next
  rcases push_cases h hopen hm with ⟨hg, hlarge, hpart⟩ | hpart | ⟨hg, hsize, hlarge, hpart⟩ |
    ⟨hg, hsize, hpart⟩
  · refine ⟨_, _, hpart, ?_, fun _ => hclosed past hlarge⟩
    rw [last, if_pos rfl, List.append_nil]
    exact hfirst hg
  · have hne : g ++ [m] ≠ [] := List.append_ne_nil_of_right_ne_nil g (List.cons_ne_nil m [])
    refine ⟨_, _, hpart, ?_, fun hnil => absurd hnil hne⟩
    rw [last_of_ne_nil hne, List.append_nil]
    by_cases hg : g = []
    · rw [hg]
      exact hfirst hg
    · rw [last_of_ne_nil hg] at htight
      exact htight.grow hg m
  · have hassoc : past ++ [g, [m]] = past ++ [g] ++ [[m]] := by simp
    refine ⟨_, _, hpart, ?_, fun _ => ?_⟩
    · rw [last, if_pos rfl, List.append_nil, hassoc]
      exact hbehind hg hsize
    · rw [hassoc]
      exact hclosed _ hlarge
  · refine ⟨_, _, hpart, hbehind hg hsize, fun hnil => ?_⟩
    cases hnil

/-- Taking any messages keeps all groups tight. -/
theorem handleAll_greedy {b : Batch} {g : List Packet} (h : b.Holds g) {limit : Nat}
    (hopen : Open (some limit) g) {past : List (List Packet)} (hgreedy : Greedy limit past g)
    {messages : List Packet} (hsound : ∀ m ∈ messages, m.Sound) :
    ∃ sent kept, Partition (some limit)
        (b.handleAll (some limit) (messages.map Request.emit)) (g ++ messages) sent kept ∧
      Greedy limit (past ++ sent) kept := by
  induction messages generalizing b g past with
  | nil =>
      refine ⟨[], g, ⟨rfl, h, by simp, hopen, (List.append_nil g).symm⟩, ?_⟩
      rw [List.append_nil]
      exact hgreedy
  | cons m rest ih =>
      have hm : m.Sound := hsound m (List.mem_cons_self ..)
      have hsound' : ∀ m' ∈ rest, m'.Sound := fun m' hm' => hsound m' (List.mem_cons_of_mem m hm')
      rcases push_greedy h hopen hgreedy hm with ⟨sent, kept, hstep, hmore⟩
      rcases ih hstep.holds hstep.kept_open hmore hsound' with ⟨sent', kept', hrun, hlast⟩
      refine ⟨sent ++ sent', kept', ?_, ?_⟩
      · rw [List.append_cons]
        exact hstep.trans hrun
      · rw [← List.append_assoc]
        exact hlast

/-! ## The number of packets -/

theorem flush_packets {b : Batch} {g : List Packet} (h : b.Holds g) :
    b.flush.2 = (last g).map Packet.join := by
  by_cases hg : g = []
  · rw [flush, if_pos (h.isEmpty_iff.mpr hg), last, if_pos hg]
    rfl
  · rw [flush, if_neg (mt h.isEmpty_iff.mp hg), last_of_ne_nil hg, h.packet]
    rfl

/-- The packets of some messages and a flush are a cut of the messages into tight groups. -/
theorem flush_cut {σ : Type} [Transport σ] (limit : Nat) (t : σ) {messages : List Packet}
    (hsound : ∀ m ∈ messages, m.Sound) :
    let attempts := ((Sink.init (some limit) t).handleAll
      (messages.map Request.emit ++ [.flush])).2
    ∃ groups, Cut limit messages groups ∧ Tight limit groups ∧
      attempts.map (·.packet) = groups.map Packet.join := by
  intro attempts
  let start := Sink.init (some limit) t
  rcases handleAll_greedy holds_empty (open_nil (some limit)) (greedy_nil limit) hsound with
    ⟨sent, kept, hpart, hgreedy⟩
  have hrun := Sink.handleAll_batch start (messages.map Request.emit)
  let after := (start.handleAll (messages.map Request.emit)).1
  have hholds : after.batch.Holds kept := hrun.1 ▸ hpart.holds
  have hsent : (start.handleAll (messages.map Request.emit)).2.map (·.packet) =
      sent.map Packet.join := hrun.2.2.trans hpart.packets
  have hflush : (after.handle .flush).2.map (·.packet) = (last kept).map Packet.join := by
    have hlimit : after.limit = some limit := hrun.2.1
    rw [(Sink.handle_batch after .flush).2.2, hlimit]
    exact flush_packets hholds
  have hgroups : ∀ g ∈ sent ++ last kept, Group (some limit) g := by
    intro g hg
    rcases List.mem_append.mp hg with hsent | hlast
    · exact hpart.sent_groups g hsent
    · by_cases hkept : kept = []
      · rw [last, if_pos hkept] at hlast
        cases hlast
      · rw [last_of_ne_nil hkept, List.mem_singleton] at hlast
        rw [hlast]
        exact group_of_open hkept hpart.kept_open
  have hflatten : (last kept).flatten = kept := by
    by_cases hkept : kept = []
    · rw [last, if_pos hkept, hkept]
      rfl
    · rw [last_of_ne_nil hkept, List.flatten_singleton]
  refine ⟨sent ++ last kept, ⟨?_, ?_, ?_⟩, hgreedy.tight, ?_⟩
  · rw [List.flatten_append, hflatten]
    exact hpart.all
  · intro g hg
    exact group_ne_nil (hgroups g hg)
  · intro g hg
    exact packable_of_group (hgroups g hg)
  · have hattempts : attempts =
        (start.handleAll (messages.map Request.emit)).2 ++ ((after.handle .flush).2 ++ []) :=
      congrArg Prod.snd (Sink.handleAll_append start _ _)
    rw [hattempts, List.append_nil, List.map_append, List.map_append, hsent, hflush]

/-- Batching uses the fewest packets. Let some messages be taken from the start
and then be flushed, with any packet size and over any transport, whichever
packets it fails to send. The number of packets attempted is the least number of
groups among all ways to cut the messages into consecutive groups, each of which
has the size of a packet at most or is a single message. -/
theorem fewest_packets {σ : Type} [Transport σ] (limit : Nat) (t : σ) (messages : List Packet)
    (hsound : ∀ m ∈ messages, m.Sound) :
    let attempts := ((Sink.init (some limit) t).handleAll
      (messages.map Request.emit ++ [.flush])).2
    IsLeast {n | ∃ groups, Cut limit messages groups ∧ groups.length = n} attempts.length := by
  intro attempts
  rcases flush_cut limit t hsound with ⟨groups, hcut, htight, hpackets⟩
  have hlength : attempts.length = groups.length := by
    calc attempts.length = (attempts.map (·.packet)).length := (List.length_map ..).symm
      _ = (groups.map Packet.join).length := by rw [hpackets]
      _ = groups.length := List.length_map ..
  rw [hlength]
  constructor
  · exact ⟨groups, hcut, rfl⟩
  · rintro n ⟨others, hothers, rfl⟩
    have hflat : others.flatten = [] ++ groups.flatten := hothers.all.trans hcut.all.symm
    exact htight.length_le hcut.nonempty hothers.packable hflat

/-- Packets of eleven bytes: two messages of five bytes fill one exactly, a third
one does not fit behind a message of seven bytes, and a message of twelve bytes
needs a packet of its own. -/
theorem fewest_packets_exact_fit :
    let message (size : Nat) : Packet := ⟨⟨(List.replicate size 0x61).toArray⟩, 1⟩
    let messages := [message 5, message 5, message 7, message 5, message 12, message 3]
    (∀ m ∈ messages, m.Sound) ∧
      IsLeast {n | ∃ groups, Cut 11 messages groups ∧ groups.length = n} 5 := by
  intro message messages
  have hsound : ∀ m ∈ messages, m.Sound := by decide
  exact ⟨hsound, fewest_packets 11 Link.idle messages hsound⟩

end Batch

end Statsd
