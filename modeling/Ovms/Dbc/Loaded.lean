import Ovms.Dbc.Grammar

/-!
# What a Loaded DBC Holds

Names in a file that was loaded are identifiers, strings are such that quotes end them, and signals
are where there are some. Every section keeps that, and leaves a rest of the tokens.
-/

open Std

namespace Ovms.Dbc.File

/-! ### Lists -/

/-- Texts that are as their rule says. -/
def Tokens (ts : List Token) : Prop := ∀ t ∈ ts, t.Valid

theorem Tokens.suffix {ts rest : List Token} (h : Tokens ts) (hrest : rest <:+ ts) : Tokens rest :=
  fun t ht => h t (hrest.subset ht)

theorem symbolList_spec (ts : List Token) :
    (symbolList ts).2 <:+ ts ∧ ∀ s ∈ (symbolList ts).1, ∃ k, symbol k = some s := by
  fun_induction symbolList ts with
  | case1 k ts s hs ih =>
      exact ⟨ih.1.trans (List.suffix_cons _ _), List.forall_mem_cons.mpr ⟨⟨k, hs⟩, ih.2⟩⟩
  | case2 k ts hs => exact ⟨List.suffix_rfl, List.forall_mem_nil _⟩
  | case3 ts => exact ⟨List.suffix_rfl, List.forall_mem_nil _⟩

theorem nodeList_spec (ts : List Token) :
    (nodeList ts).2 <:+ ts ∧ (Tokens ts → ∀ name ∈ (nodeList ts).1, IsId name) := by
  fun_induction nodeList ts with
  | case1 name ts ih =>
      refine ⟨ih.1.trans (List.suffix_cons _ _), fun h => ?_⟩
      obtain ⟨hname, hts⟩ := List.forall_mem_cons.mp h
      exact List.forall_mem_cons.mpr ⟨hname, ih.2 hts⟩
  | case2 ts => exact ⟨List.suffix_rfl, fun _ => List.forall_mem_nil _⟩

theorem valueList_spec (ts : List Token) :
    (valueList ts).2 <:+ ts ∧
      (Tokens ts → ∀ entry ∈ (valueList ts).1, Quotable entry.2) := by
  fun_induction valueList ts with
  | case1 v s ts ih =>
      refine ⟨ih.1.trans (List.suffix_append [_, _] _), fun h => ?_⟩
      obtain ⟨hs, hts⟩ := List.forall_mem_cons.mp (List.forall_mem_cons.mp h).2
      exact List.forall_mem_cons.mpr ⟨hs, ih.2 hts⟩
  | case2 ts => exact ⟨List.suffix_rfl, fun _ => List.forall_mem_nil _⟩

theorem receiverList_spec (ts : List Token) :
    (receiverList ts).2 <:+ ts ∧
      (Tokens ts → ∀ receiver ∈ (receiverList ts).1, IsId receiver) := by
  fun_induction receiverList ts with
  | case1 receiver ts ih =>
      refine ⟨ih.1.trans (List.suffix_append [_, _] _), fun h => ?_⟩
      obtain ⟨hreceiver, hts⟩ := List.forall_mem_cons.mp (List.forall_mem_cons.mp h).2
      exact List.forall_mem_cons.mpr ⟨hreceiver, ih.2 hts⟩
  | case2 ts => exact ⟨List.suffix_rfl, fun _ => List.forall_mem_nil _⟩

theorem muxValueRangeList_suffix (ts : List Token) : (muxValueRangeList ts).2 <:+ ts := by
  fun_induction muxValueRangeList ts with
  | case1 a b ts ih => exact ih.trans (List.suffix_append [_, _, _] _)
  | case2 a b ts => exact List.suffix_append [_, _] _
  | case3 ts ih => exact ih.trans (List.suffix_cons _ _)
  | case4 ts => exact List.suffix_rfl

/-- The unit and the receivers of a `SG_` line, and the rest. -/
theorem signalLine_spec {ts rest : List Token} {line : SignalLine}
    (hr : signalLine ts = some (line, rest)) : rest <:+ ts ∧ (Tokens ts →
      Quotable line.unit ∧ line.receivers ≠ [] ∧ ∀ receiver ∈ line.receivers, IsId receiver) := by
  have hmux : (signalMux ts).2 <:+ ts := by
    unfold signalMux
    split
    · exact List.suffix_cons _ _
    · exact List.suffix_rfl
  unfold signalLine at hr
  dsimp only at hr
  split at hr
  next unit receiver behind heq =>
    have hdrop : behind <:+ (signalMux ts).2 := ⟨(signalMux ts).2.take 19, by rw [heq]; rfl⟩
    obtain ⟨hrest, hreceivers⟩ := receiverList_spec behind
    simp only [Option.bind_eq_bind, Option.bind_eq_some_iff] at hr
    obtain ⟨_, -, _, -, _, -, _, -, _, -, hr⟩ := hr
    cases hr
    refine ⟨(hrest.trans hdrop).trans hmux, fun h => ?_⟩
    have hbehind := h.suffix hmux
    have hunit : IsId receiver ∧ Quotable unit := by
      rw [heq] at hbehind
      exact ⟨hbehind (.id receiver) (by simp), hbehind (.stringVal unit) (by simp)⟩
    exact ⟨hunit.2, List.cons_ne_nil _ _,
      List.forall_mem_cons.mpr ⟨hunit.1, hreceivers (hbehind.suffix hdrop)⟩⟩
  next => cases hr

/-! ### The invariant -/

/-- The strings of a table. -/
def ValueTable.Valid (values : ValueTable) : Prop :=
  ∀ (k : UInt32) (v : Text), values[k]? = some v → Quotable v

theorem ValueTable.Valid.addValues {values : ValueTable} (h : values.Valid)
    {entries : List (ℤ × Text)} (hentries : ∀ entry ∈ entries, Quotable entry.2) :
    (addValues values entries).Valid := by
  induction entries generalizing values with
  | nil => exact h
  | cons entry entries ih =>
      obtain ⟨hentry, hentries⟩ := List.forall_mem_cons.mp hentries
      have hinsert : ValueTable.Valid (values.insert (.ofInt entry.1) entry.2) := by
        intro k v hv
        rw [ExtTreeMap.getElem?_insert] at hv
        split at hv
        · exact Option.some.inj hv ▸ hentry
        · exact h k v hv
      exact ih hinsert hentries

/-- A signal that has been read. -/
structure Signal.Valid (s : Signal) : Prop where
  name : IsId s.name
  unit : Quotable s.unit
  receivers : s.receivers ≠ []
  receiver : ∀ receiver ∈ s.receivers, IsId receiver
  comments : ∀ comment ∈ s.comments, Quotable comment
  values : ValueTable.Valid s.values

/-- A message that has been read, in a file with some signals. -/
structure Message.Valid (size : ℕ) (m : Message ℕ) : Prop where
  name : IsId m.name
  transmitterNode : IsId m.transmitterNode
  comments : ∀ comment ∈ m.comments, Quotable comment
  signals : ∀ p ∈ m.signals, p < size

/-- A file that has been read. -/
structure DbcFile.Valid (file : DbcFile) : Prop where
  version : Quotable file.version
  newsymbols : ∀ s ∈ file.newsymbols, ∃ k, symbol k = some s
  nodes : ∀ (name : Text) (comments : List Text), file.nodes[name]? = some comments →
    IsId name ∧ ∀ comment ∈ comments, Quotable comment
  values : ∀ (name : Text) (table : ValueTable), file.values[name]? = some table →
    IsId name ∧ table ≠ ∅ ∧ ValueTable.Valid table
  messages : ∀ (id : UInt32) (m : Message ℕ), file.messages[id]? = some m →
    m.Valid file.heap.length
  comments : ∀ comment ∈ file.comments, Quotable comment
  signals : ∀ s ∈ file.heap, s.Valid
  sources : ∀ s ∈ file.heap, ∀ p, s.mux.source = some p → p < file.heap.length

/-- The parser between two sections. -/
structure Parser.Valid (π : Parser) : Prop where
  file : π.file.Valid
  currentSignal : ∀ p, π.currentSignal = some p → p < π.file.heap.length

theorem Message.Valid.mono {size size' : ℕ} {m : Message ℕ} (h : m.Valid size)
    (hle : size ≤ size') : m.Valid size' :=
  { h with signals := fun p hp => (h.signals p hp).trans_le hle }

theorem addValues_ne_empty (values : ValueTable) (entry : ℤ × Text) (entries : List (ℤ × Text)) :
    addValues values (entry :: entries) ≠ ∅ := by
  induction entries generalizing values entry with
  | nil => exact ExtTreeMap.insert_ne_empty
  | cons next entries ih => exact ih _ next

/-- A signal changed into one that is valid as well. -/
theorem DbcFile.Valid.modifySignal {file : DbcFile} (h : file.Valid) {p : ℕ} {f : Signal → Signal}
    (hf : ∀ s ∈ file.heap, (f s).Valid ∧
      ∀ q, (f s).mux.source = some q → q < file.heap.length) :
    (file.modifySignal p f).Valid := by
  have hlength : (file.heap.modify p f).length = file.heap.length := List.length_modify ..
  have hheap : ∀ s ∈ file.heap.modify p f, s.Valid ∧
      ∀ q, s.mux.source = some q → q < file.heap.length := by
    intro s hs
    obtain ⟨i, hi, rfl⟩ := List.mem_iff_getElem.mp hs
    rw [List.getElem_modify]
    split
    · exact hf _ (List.getElem_mem _)
    · exact ⟨h.signals _ (List.getElem_mem _), h.sources _ (List.getElem_mem _)⟩
  exact { h with
    messages := fun id m hm => hlength.symm ▸ h.messages id m hm
    signals := fun s hs => (hheap s hs).1
    sources := fun s hs => hlength.symm ▸ (hheap s hs).2 }

theorem valid_empty : ValueTable.Valid ∅ := fun k v hv => by
  rw [ExtTreeMap.getElem?_empty] at hv
  cases hv

/-- A tag keeps the source, or there is none then. -/
theorem source_retag (mux : DbcMultiplexor) (tag : Option Text) :
    (mux.retag tag).source = mux.source ∨ (mux.retag tag).source = none := by
  unfold DbcMultiplexor.retag
  split
  · exact .inl (DbcMultiplexor.source_clearMultiplexed _)
  · exact .inl (DbcMultiplexor.source_setMultiplexSource _)
  · dsimp only
    split
    · rw [← DbcMultiplexor.source_setMultiplexSource mux]
      exact DbcMultiplexor.source_setMultiplexed _ _
    · exact DbcMultiplexor.source_setMultiplexed _ _
  · exact .inl rfl

theorem source_retag_new (tag : Option Text) : (DbcMultiplexor.new.retag tag).source = none :=
  (source_retag .new tag).elim id id

theorem modify_concat (signals : List Signal) (s : Signal) (f : Signal → Signal) :
    (signals ++ [s]).modify signals.length f = signals ++ [f s] := by
  induction signals with
  | nil => rfl
  | cons first signals ih =>
      rw [List.cons_append, List.length_cons, List.modify_succ_cons, ih]
      rfl

/-- More nodes. -/
theorem nodes_foldl {names : List Text} {nodes : ExtTreeMap Text (List Text)}
    (hnames : ∀ name ∈ names, IsId name)
    (hnodes : ∀ (name : Text) (comments : List Text), nodes[name]? = some comments →
      IsId name ∧ ∀ comment ∈ comments, Quotable comment)
    (name : Text) (comments : List Text)
    (h : (names.foldl (fun nodes name => nodes.insert name []) nodes)[name]? = some comments) :
    IsId name ∧ ∀ comment ∈ comments, Quotable comment := by
  induction names generalizing nodes with
  | nil => exact hnodes name comments h
  | cons first names ih =>
      obtain ⟨hfirst, hnames⟩ := List.forall_mem_cons.mp hnames
      refine ih hnames (fun name comments hname => ?_) h
      rw [ExtTreeMap.getElem?_insert] at hname
      split at hname
      next heq =>
        obtain rfl := LawfulEqCmp.compare_eq_iff_eq.mp heq
        obtain rfl := Option.some.inj hname
        exact ⟨hfirst, List.forall_mem_nil _⟩
      next => exact hnodes name comments hname

/-! ### The sections -/

namespace Parser

variable {π : Parser} {ts : List Token} {r : Parser × List Token}

namespace Valid

/-- The signal of a `SG_` line. -/
theorem addSignal (h : π.Valid) {name : Text} (hname : IsId name) {line : SignalLine}
    (hunit : Quotable line.unit) (hne : line.receivers ≠ [])
    (hreceivers : ∀ receiver ∈ line.receivers, IsId receiver) {π' : Parser}
    (hr : π.addSignal name line = some π') : π'.Valid := by
  -- a message with the signal behind its signals
  have hmessages : ∀ {file : DbcFile} (p : ℕ) (id : UInt32) (m : Message ℕ), file.Valid →
      p < file.heap.length → file.messages[id]? = some m →
      DbcFile.Valid { file with
        messages := file.messages.insert id { m with signals := m.signals ++ [p] } } := by
    intro file p id m hfile hp hm
    refine { hfile with messages := fun id' m' hm' => ?_ }
    rw [ExtTreeMap.getElem?_insert] at hm'
    split at hm'
    · obtain rfl := Option.some.inj hm'
      have hvalid := hfile.messages id m hm
      exact { hvalid with
        signals := fun q hq => (List.mem_append.mp hq).elim (hvalid.signals q) fun hq =>
          List.mem_singleton.mp hq ▸ hp }
    · exact hfile.messages id' m' hm'
  rw [Parser.addSignal, Option.bind_eq_bind, Option.bind_eq_some_iff] at hr
  obtain ⟨id, -, hr⟩ := hr
  rw [Option.bind_eq_bind, Option.bind_eq_some_iff] at hr
  obtain ⟨m, hm, hr⟩ := hr
  obtain rfl := Option.some.inj hr
  cases hsignal : π.currentSignal with
  | none =>
      rw [Option.getD_none, Option.isSome_none, if_neg Bool.false_ne_true, modify_concat]
      have hnew : DbcFile.Valid { π.file with
          heap := π.file.heap ++ [Signal.new.setLine name line] } := by
        have hlength : (π.file.heap ++ [Signal.new.setLine name line]).length =
            π.file.heap.length + 1 := List.length_append
        refine { h.file with
          messages := fun id m hm => (h.file.messages id m hm).mono (hlength ▸ Nat.le_succ _)
          signals := fun s hs => ?_
          sources := fun s hs q hq => ?_ }
        · rcases List.mem_append.mp hs with hs | hs
          · exact h.file.signals s hs
          · obtain rfl := List.mem_singleton.mp hs
            exact ⟨hname, hunit, hne, hreceivers, List.forall_mem_nil _, valid_empty⟩
        · rcases List.mem_append.mp hs with hs | hs
          · exact (h.file.sources s hs q hq).trans_le (hlength ▸ Nat.le_succ _)
          · obtain rfl := List.mem_singleton.mp hs
            exact absurd (hq.symm.trans (source_retag_new line.tag)) (Option.some_ne_none q)
      exact ⟨hmessages _ id m hnew (List.length_append ▸ Nat.lt_succ_self _) hm,
        fun p hp => absurd hp.symm (Option.some_ne_none p)⟩
  | some p =>
      rw [Option.getD_some, Option.isSome_some, if_pos rfl]
      have hold : (π.file.modifySignal p fun s => s.setLine name line).Valid := by
        refine h.file.modifySignal fun s hs => ⟨?_, fun q hq => ?_⟩
        · have hvalid := h.file.signals s hs
          refine ⟨hname, hunit, List.append_ne_nil_of_left_ne_nil hvalid.receivers _, ?_,
            hvalid.comments, hvalid.values⟩
          exact fun receiver hmem =>
            (List.mem_append.mp hmem).elim (hvalid.receiver receiver) (hreceivers receiver)
        · rcases source_retag s.mux line.tag with hsource | hsource
          · exact h.file.sources s hs q (hsource.symm.trans hq)
          · exact absurd (hq.symm.trans hsource) (Option.some_ne_none q)
      refine ⟨hmessages p id m hold ?_ hm, fun p hp => absurd hp.symm (Option.some_ne_none p)⟩
      exact (h.currentSignal p hsignal).trans_eq (List.length_modify ..).symm

theorem lt_of_findSignal (h : π.Valid) {id : UInt32} {m : Message ℕ}
    (hm : π.file.messages[id]? = some m) {name : Text} {p : ℕ}
    (hp : π.file.findSignal m name = some p) : p < π.file.heap.length :=
  (h.file.messages id m hm).signals p (List.mem_of_find?_eq_some hp)

theorem addSignalValues (h : π.Valid) {id : ℤ} {name : Text} {entries : List (ℤ × Text)}
    (hentries : ∀ entry ∈ entries, Quotable entry.2) {π' : Parser}
    (hr : π.addSignalValues id name entries = some π') : π'.Valid := by
  simp only [Parser.addSignalValues, Option.bind_eq_bind, Option.bind_eq_some_iff] at hr
  obtain ⟨m, hm, p, hp, hr⟩ := hr
  obtain rfl := Option.some.inj hr
  have hlength : (π.file.heap.modify p fun s =>
      { s with values := addValues s.values entries }).length = π.file.heap.length :=
    List.length_modify ..
  refine ⟨h.file.modifySignal fun s hs => ⟨?_, h.file.sources s hs⟩, fun q hq => ?_⟩
  · exact { h.file.signals s hs with values := (h.file.signals s hs).values.addValues hentries }
  · obtain rfl := Option.some.inj hq
    exact (h.lt_of_findSignal hm hp).trans_eq hlength.symm

theorem setSource (h : π.Valid) {id : ℤ} {name source : Text} {ranges : List SwitchRange}
    {π' : Parser} (hr : π.setSource id name source ranges = some π') : π'.Valid := by
  simp only [Parser.setSource, Option.bind_eq_bind, Option.bind_eq_some_iff] at hr
  obtain ⟨m, hm, p, hp, src, hsrc, hr⟩ := hr
  split at hr
  · obtain rfl := Option.some.inj hr
    have hlength : (π.file.heap.modify p fun s => { s with
        mux := ranges.foldl DbcMultiplexor.addMultiplexRange (s.mux.setSource src) }).length =
        π.file.heap.length := List.length_modify ..
    refine ⟨h.file.modifySignal fun s hs => ⟨?_, fun q hq => ?_⟩, fun q hq => ?_⟩
    · exact { h.file.signals s hs with }
    · rw [DbcMultiplexor.source_foldl_addMultiplexRange] at hq
      obtain rfl := Option.some.inj hq
      exact h.lt_of_findSignal hm hsrc
    · obtain rfl := Option.some.inj hq
      exact (h.lt_of_findSignal hm hp).trans_eq hlength.symm
  · cases hr

theorem addNodeComment (h : π.Valid) {name comment : Text} (hcomment : Quotable comment)
    {π' : Parser} (hr : π.addNodeComment name comment = some π') : π'.Valid := by
  rw [Parser.addNodeComment, Option.bind_eq_bind, Option.bind_eq_some_iff] at hr
  obtain ⟨comments, hname, hr⟩ := hr
  obtain rfl := Option.some.inj hr
  obtain ⟨hid, hcomments⟩ := h.file.nodes name comments hname
  refine ⟨{ h.file with nodes := fun name' comments' hname' => ?_ }, h.currentSignal⟩
  rw [ExtTreeMap.getElem?_insert] at hname'
  split at hname'
  next heq =>
    obtain rfl := LawfulEqCmp.compare_eq_iff_eq.mp heq
    obtain rfl := Option.some.inj hname'
    refine ⟨hid, fun c hc => (List.mem_append.mp hc).elim (hcomments c) fun hc => ?_⟩
    exact List.mem_singleton.mp hc ▸ hcomment
  next => exact h.file.nodes name' comments' hname'

theorem addMessageComment (h : π.Valid) {id : ℤ} {comment : Text} (hcomment : Quotable comment)
    {π' : Parser} (hr : π.addMessageComment id comment = some π') : π'.Valid := by
  rw [Parser.addMessageComment, Option.bind_eq_bind, Option.bind_eq_some_iff] at hr
  obtain ⟨m, hm, hr⟩ := hr
  obtain rfl := Option.some.inj hr
  have hvalid := h.file.messages _ m hm
  refine ⟨{ h.file with messages := fun id' m' hm' => ?_ }, h.currentSignal⟩
  rw [ExtTreeMap.getElem?_insert] at hm'
  split at hm'
  · obtain rfl := Option.some.inj hm'
    refine { hvalid with
      comments := fun c hc => (List.mem_append.mp hc).elim (hvalid.comments c) fun hc => ?_ }
    exact List.mem_singleton.mp hc ▸ hcomment
  · exact h.file.messages id' m' hm'

theorem addSignalComment (h : π.Valid) {id : ℤ} {name comment : Text}
    (hcomment : Quotable comment) {π' : Parser}
    (hr : π.addSignalComment id name comment = some π') : π'.Valid := by
  simp only [Parser.addSignalComment, Option.bind_eq_bind, Option.bind_eq_some_iff] at hr
  obtain ⟨m, -, p, -, hr⟩ := hr
  obtain rfl := Option.some.inj hr
  have hlength : (π.file.heap.modify p fun s =>
      { s with comments := s.comments ++ [comment] }).length = π.file.heap.length :=
    List.length_modify ..
  refine ⟨h.file.modifySignal fun s hs => ⟨?_, h.file.sources s hs⟩,
    fun q hq => (h.currentSignal q hq).trans_eq hlength.symm⟩
  have hvalid := h.file.signals s hs
  refine { hvalid with
    comments := fun c hc => (List.mem_append.mp hc).elim (hvalid.comments c) fun hc => ?_ }
  exact List.mem_singleton.mp hc ▸ hcomment

end Valid

/-- What a section leaves: a rest of the tokens, and a parser that is valid. -/
def Leaves (π : Parser) (ts : List Token) (r : Parser × List Token) : Prop :=
  r.2 <:+ ts ∧ (π.Valid → Tokens ts → r.1.Valid)

theorem versionSection_leaves (hr : π.versionSection ts = some r) : Leaves π ts r := by
  unfold versionSection at hr
  split at hr
  · cases hr
    exact ⟨List.suffix_cons _ _, fun h hts =>
      ⟨{ h.file with version := (List.forall_mem_cons.mp hts).1 }, h.currentSignal⟩⟩
  · cases hr

theorem symbolSection_leaves (hr : π.symbolSection ts = some r) : Leaves π ts r := by
  unfold symbolSection at hr
  split at hr
  next ts =>
    cases hr
    obtain ⟨hrest, hsymbols⟩ := symbolList_spec ts
    refine ⟨hrest.trans (List.suffix_cons _ _), fun h _ =>
      ⟨{ h.file with newsymbols := fun s hs => ?_ }, h.currentSignal⟩⟩
    exact (List.mem_append.mp hs).elim (h.file.newsymbols s) (hsymbols s)
  next => cases hr

theorem bitTimingSection_leaves (hr : π.bitTimingSection ts = some r) : Leaves π ts r := by
  unfold bitTimingSection at hr
  split at hr
  · cases hr
    exact ⟨List.suffix_append [_, _, _, _, _, _] _, fun h _ =>
      ⟨{ h.file with }, h.currentSignal⟩⟩
  · cases hr
  · cases hr
    exact ⟨List.suffix_cons _ _, fun h _ => h⟩
  · cases hr

theorem nodeListSection_leaves (hr : π.nodeListSection ts = some r) : Leaves π ts r := by
  unfold nodeListSection at hr
  split at hr
  next ts =>
    cases hr
    obtain ⟨hrest, hnames⟩ := nodeList_spec ts
    refine ⟨hrest.trans (List.suffix_cons _ _), fun h hts => ⟨{ h.file with
      nodes := nodes_foldl (hnames (List.forall_mem_cons.mp hts).2) h.file.nodes },
      h.currentSignal⟩⟩
  next => cases hr

theorem valueTableSection_leaves (hr : π.valueTableSection ts = some r) : Leaves π ts r := by
  unfold valueTableSection at hr
  split at hr
  next name v s ts =>
    split at hr
    next entries rest hlist =>
      cases hr
      obtain ⟨hrest, hentries⟩ := valueList_spec ts
      rw [hlist] at hentries hrest
      refine ⟨((List.suffix_cons _ _).trans hrest).trans (List.suffix_append [_, _, _] _),
        fun h hts => ⟨{ h.file with values := fun name' table htable => ?_ }, h.currentSignal⟩⟩
      rw [ExtTreeMap.getElem?_insert] at htable
      split at htable
      next heq =>
        obtain rfl := LawfulEqCmp.compare_eq_iff_eq.mp heq
        obtain rfl := Option.some.inj htable
        have hs : Quotable s := hts (.stringVal s) (by simp)
        have hentries := hentries (hts.suffix (List.suffix_append [_, _, _] ts))
        exact ⟨hts (.id name) (by simp), addValues_ne_empty _ _ _,
          valid_empty.addValues (List.forall_mem_cons.mpr ⟨hs, hentries⟩)⟩
      next => exact h.file.values name' table htable
    next => cases hr
  next => cases hr

theorem messageSection_leaves (hr : π.messageSection ts = some r) : Leaves π ts r := by
  unfold messageSection at hr
  split at hr
  next id name size node ts =>
    cases hr
    refine ⟨List.suffix_append [_, _, _, _, _] _, fun h hts =>
      ⟨{ h.file with messages := fun id' m hm => ?_ }, h.currentSignal⟩⟩
    rw [ExtTreeMap.getElem?_insert] at hm
    split at hm
    · obtain rfl := Option.some.inj hm
      exact ⟨hts (.id name) (by simp), hts (.id node) (by simp), List.forall_mem_nil _,
        List.forall_mem_nil _⟩
    · exact h.file.messages id' m hm
  next => cases hr

theorem signalSection_leaves (hr : π.signalSection ts = some r) : Leaves π ts r := by
  unfold signalSection at hr
  split at hr
  next name ts =>
    rw [Option.bind_eq_bind, Option.bind_eq_some_iff] at hr
    obtain ⟨⟨line, rest⟩, hline, hr⟩ := hr
    dsimp only at hr
    rw [Option.bind_eq_bind, Option.bind_eq_some_iff] at hr
    obtain ⟨π', hadd, hr⟩ := hr
    obtain rfl := Option.some.inj hr
    obtain ⟨hrest, hspec⟩ := signalLine_spec hline
    refine ⟨hrest.trans (List.suffix_cons _ _), fun h hts => ?_⟩
    obtain ⟨hname, hts⟩ := List.forall_mem_cons.mp hts
    obtain ⟨hunit, hne, hreceivers⟩ := hspec hts
    exact h.addSignal hname hunit hne hreceivers hadd
  next => cases hr

theorem valueSection_leaves (hr : π.valueSection ts = some r) : Leaves π ts r := by
  unfold valueSection at hr
  split at hr
  next id name v s ts =>
    split at hr
    next entries rest hlist =>
      rw [Option.map_eq_some_iff] at hr
      obtain ⟨π', hadd, rfl⟩ := hr
      obtain ⟨hrest, hentries⟩ := valueList_spec ts
      rw [hlist] at hentries hrest
      refine ⟨((List.suffix_cons _ _).trans hrest).trans (List.suffix_append [_, _, _, _] _),
        fun h hts => ?_⟩
      have hs : Quotable s := hts (.stringVal s) (by simp)
      have hentries := hentries (hts.suffix (List.suffix_append [_, _, _, _] ts))
      exact h.addSignalValues (List.forall_mem_cons.mpr ⟨hs, hentries⟩) hadd
    next => cases hr
  next => cases hr

/-- More values take a semicolon at least. -/
theorem moreValues_leaves (hr : π.moreValues ts = some r) :
    .semicolon :: r.2 <:+ ts ∧ (π.Valid → Tokens ts → r.1.Valid) := by
  obtain ⟨hrest, hentries⟩ := valueList_spec ts
  unfold moreValues at hr
  split at hr
  next rest hlist =>
    cases hr
    rw [hlist] at hrest
    exact ⟨hrest, fun h _ => h⟩
  next entries rest p hsome hlist hp =>
    cases hr
    rw [hlist] at hentries hrest
    have hlength : (π.file.heap.modify p fun s =>
        { s with values := addValues s.values entries }).length = π.file.heap.length :=
      List.length_modify ..
    refine ⟨hrest, fun h hts =>
      ⟨h.file.modifySignal fun s hs => ⟨?_, h.file.sources s hs⟩,
        fun q hq => (h.currentSignal q hq).trans_eq hlength.symm⟩⟩
    exact { h.file.signals s hs with
      values := (h.file.signals s hs).values.addValues (hentries hts) }
  next => cases hr

theorem multiplexedSignalSection_leaves (hr : π.multiplexedSignalSection ts = some r) :
    Leaves π ts r := by
  unfold multiplexedSignalSection at hr
  split at hr
  next id name source ts =>
    split at hr
    next ranges rest hlist =>
      rw [Option.map_eq_some_iff] at hr
      obtain ⟨π', hset, rfl⟩ := hr
      have hrest := muxValueRangeList_suffix ts
      rw [hlist] at hrest
      exact ⟨((List.suffix_cons _ _).trans hrest).trans (List.suffix_append [_, _, _] ts),
        fun h _ => h.setSource hset⟩
    next => cases hr
  next => cases hr

theorem attributeSection_leaves (hr : π.attributeSection ts = some r) : Leaves π ts r := by
  unfold attributeSection at hr
  split at hr
  · split at hr
    · cases hr
      exact ⟨List.suffix_append [_, _, _, _] _, fun h _ => h⟩
    · cases hr
  · split at hr
    · cases hr
      exact ⟨List.suffix_append [_, _, _, _, _, _] _, fun h _ => h⟩
    · cases hr
  · cases hr

theorem attributeDefaultSection_leaves (hr : π.attributeDefaultSection ts = some r) :
    Leaves π ts r := by
  unfold attributeDefaultSection at hr
  split at hr
  · cases hr
    exact ⟨List.suffix_append [_, _, _] _, fun h _ => h⟩
  · cases hr
    exact ⟨List.suffix_append [_, _, _] _, fun h _ => h⟩
  · cases hr

theorem commentSection_leaves (hr : π.commentSection ts = some r) : Leaves π ts r := by
  unfold commentSection at hr
  split at hr
  next s ts =>
    cases hr
    refine ⟨List.suffix_append [_, _] _, fun h hts => ⟨{ h.file with
      comments := fun c hc => (List.mem_append.mp hc).elim (h.file.comments c) fun hc => ?_ },
      h.currentSignal⟩⟩
    have hs : Quotable s := hts (.stringVal s) (by simp)
    exact List.mem_singleton.mp hc ▸ hs
  next name s ts =>
    rw [Option.map_eq_some_iff] at hr
    obtain ⟨π', hadd, rfl⟩ := hr
    exact ⟨List.suffix_append [_, _, _, _] _, fun h hts =>
      h.addNodeComment (hts (.stringVal s) (by simp)) hadd⟩
  next id s ts =>
    rw [Option.map_eq_some_iff] at hr
    obtain ⟨π', hadd, rfl⟩ := hr
    exact ⟨List.suffix_append [_, _, _, _] _, fun h hts =>
      h.addMessageComment (hts (.stringVal s) (by simp)) hadd⟩
  next id name s ts =>
    rw [Option.map_eq_some_iff] at hr
    obtain ⟨π', hadd, rfl⟩ := hr
    exact ⟨List.suffix_append [_, _, _, _, _] _, fun h hts =>
      h.addSignalComment (hts (.stringVal s) (by simp)) hadd⟩
  next => cases hr

/-- **The step lemma.** A section takes a token at least. -/
theorem dbcSection_leaves {t : Token} (hr : π.dbcSection (t :: ts) = some r) :
    r.2 <:+ ts ∧ (π.Valid → Tokens (t :: ts) → r.1.Valid) := by
  have hkeyword : Leaves π ts r → r.2 <:+ ts ∧ (π.Valid → Tokens (t :: ts) → r.1.Valid) :=
    fun h => ⟨h.1, fun hπ hts => h.2 hπ (List.forall_mem_cons.mp hts).2⟩
  unfold dbcSection at hr
  split at hr
  next heq =>
    cases heq
    exact hkeyword (versionSection_leaves hr)
  next heq =>
    cases heq
    exact hkeyword (symbolSection_leaves hr)
  next heq =>
    cases heq
    exact hkeyword (bitTimingSection_leaves hr)
  next heq =>
    cases heq
    exact hkeyword (nodeListSection_leaves hr)
  next heq =>
    cases heq
    exact hkeyword (valueTableSection_leaves hr)
  next heq =>
    cases heq
    exact hkeyword (messageSection_leaves hr)
  next heq =>
    cases heq
    exact hkeyword (signalSection_leaves hr)
  next heq =>
    cases heq
    exact hkeyword (valueSection_leaves hr)
  next heq =>
    cases heq
    exact hkeyword (multiplexedSignalSection_leaves hr)
  next heq =>
    cases heq
    exact hkeyword (attributeSection_leaves hr)
  next heq =>
    cases heq
    exact hkeyword (attributeDefaultSection_leaves hr)
  next heq =>
    cases heq
    exact hkeyword (commentSection_leaves hr)
  next =>
    obtain ⟨hrest, hvalid⟩ := moreValues_leaves hr
    refine ⟨?_, hvalid⟩
    rcases List.suffix_cons_iff.mp hrest with heq | hrest
    · exact (List.cons.inj heq).2 ▸ List.suffix_rfl
    · exact (List.suffix_cons _ _).trans hrest

/-! ### All of a text -/

/-- The sections of some tokens. -/
def sections (π : Parser) (ts : List Token) : Option Parser := dbcSections ts.length π ts

/-- More steps than tokens change nothing. -/
theorem dbcSections_eq {n : ℕ} (h : ts.length ≤ n) : dbcSections n π ts = π.sections ts := by
  have hsteps : ∀ (m n : ℕ) (π : Parser) (ts : List Token), ts.length ≤ m → ts.length ≤ n →
      dbcSections m π ts = dbcSections n π ts := by
    intro m
    induction m with
    | zero =>
        intro n π ts hm hn
        obtain rfl := List.length_eq_zero_iff.mp (Nat.le_zero.mp hm)
        cases n <;> rfl
    | succ m ih =>
        intro n π ts hm hn
        cases ts with
        | nil => cases n <;> rfl
        | cons t ts =>
            cases n with
            | zero => exact absurd hn (Nat.not_succ_le_zero _)
            | succ n =>
                rw [dbcSections, dbcSections]
                refine Option.bind_congr fun r hr => ?_
                have hrest := (dbcSection_leaves hr).1.length_le
                rw [List.length_cons] at hm hn
                exact ih n r.1 r.2 (by omega) (by omega)
  exact hsteps n ts.length π ts h (Nat.le_refl _)

/-- **One section, and then the rest.** -/
theorem sections_cons (t : Token) :
    π.sections (t :: ts) = (π.dbcSection (t :: ts)).bind fun r => r.1.sections r.2 := by
  change dbcSections (ts.length + 1) π (t :: ts) = _
  rw [dbcSections]
  exact Option.bind_congr fun r hr => dbcSections_eq (dbcSection_leaves hr).1.length_le

/-- **The run lemma.** -/
theorem Valid.sections (h : π.Valid) (hts : Tokens ts) {π' : Parser}
    (hr : π.sections ts = some π') : π'.Valid := by
  obtain ⟨n, hn⟩ : ∃ n, ts.length ≤ n := ⟨_, Nat.le_refl _⟩
  induction n generalizing π ts with
  | zero =>
      obtain rfl := List.length_eq_zero_iff.mp (Nat.le_zero.mp hn)
      obtain rfl := Option.some.inj hr
      exact h
  | succ n ih =>
      cases ts with
      | nil =>
          obtain rfl := Option.some.inj hr
          exact h
      | cons t ts =>
          rw [sections_cons, Option.bind_eq_some_iff] at hr
          obtain ⟨r, hsection, hr⟩ := hr
          obtain ⟨hrest, hvalid⟩ := dbcSection_leaves hsection
          refine ih (hvalid h hts) (hts.suffix (hrest.trans (List.suffix_cons _ _))) hr ?_
          exact hrest.length_le.trans (Nat.le_of_succ_le_succ hn)

end Parser

end Ovms.Dbc.File
