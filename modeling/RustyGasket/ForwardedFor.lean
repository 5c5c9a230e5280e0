import RustyGasket.IpText

/-!
# `ForwardedIpKey` behind trusted proxies

The rate-limit key is the entry `trusted_hops` from the right among the entries of
the `X-Forwarded-For` lines that decode. A proxy extends the last line, so when
the client's last line does not decode, what the proxies appended is lost with it
and the count from the right runs into the client's other lines.
-/

namespace RustyGasket

structure SocketAddr where
  ip : IpAddr
  port : Nat
  deriving DecidableEq, Repr

/-- What the rate limiter reads of `http::request::Parts`. -/
structure Parts where
  headers : HeaderMap
  connectInfo : Option SocketAddr

def IpAddr.toText (ip : IpAddr) : String := String.ofList ip.display

def connectInfoIp (parts : Parts) : Option String :=
  parts.connectInfo.map fun ci => ci.ip.toText

def parseForwardedIp (raw : List Char) : Option String :=
  (parseAddress (trim raw)).map IpAddr.toText

structure ForwardedIpKey where
  trustedHops : Nat
  positive : 1 ≤ trustedHops

/-- `trusted_hops.max(1)`. -/
def ForwardedIpKey.new (trustedHops : Nat) : ForwardedIpKey :=
  ⟨max trustedHops 1, Nat.le_max_right _ _⟩

def X_FORWARDED_FOR : String := "x-forwarded-for"

/-- The lines that decode, split at commas, trimmed, without empty entries. -/
def forwardedEntries (lines : List HeaderValue) : List (List Char) :=
  (((lines.filterMap HeaderValue.toStr).flatMap (·.splitOn ',')).map trim).filter (· ≠ [])

/-- `entries.len().checked_sub(hops).and_then(|idx| entries.get(idx))`. -/
def entryFromRight (entries : List (List Char)) (hops : Nat) : Option (List Char) :=
  if hops ≤ entries.length then entries[entries.length - hops]? else none

def ForwardedIpKey.extractKey (key : ForwardedIpKey) (parts : Parts) : Option String :=
  let entries := forwardedEntries (parts.headers.getAll X_FORWARDED_FOR)
  ((entryFromRight entries key.trustedHops).bind parseForwardedIp).orElse fun _ =>
    connectInfoIp parts

/-! ## Trusted proxies -/

/-- Text that parses as an address, with the address. -/
structure IpEntry where
  text : List Char
  ip : IpAddr
  parses : parseAddress text = some ip

/-- What the header code needs to know of one character of an address. -/
structure HeaderSafe (c : Char) : Prop where
  ascii : c.toNat < 128
  notComma : c ≠ ','
  notBlank : isWhitespace c = false
  visible : isVisibleAscii (UInt8.ofNat c.toNat) = true
  legal : isHeaderByte (UInt8.ofNat c.toNat) = true

theorem headerSafe_ascii : ∀ n : Fin 128, isAddressChar (Char.ofNat n) = true →
    Char.ofNat n ≠ ',' ∧ isWhitespace (Char.ofNat n) = false ∧
      isVisibleAscii (UInt8.ofNat n) = true ∧ isHeaderByte (UInt8.ofNat n) = true := by
  decide

theorem isAddressChar_ascii {c : Char} (h : isAddressChar c = true) : c.toNat < 128 := by
  have mono : ∀ {a b : Char}, a ≤ b → a.toNat ≤ b.toNat := fun h => UInt32.le_iff_toNat_le.mp h
  simp only [isAddressChar, Bool.or_eq_true, Bool.and_eq_true, decide_eq_true_eq, beq_iff_eq] at h
  obtain (((((((⟨-, h⟩ | ⟨-, h⟩) | ⟨-, h⟩) | rfl) | rfl) | rfl) | rfl) | rfl) := h
  · exact lt_of_le_of_lt (mono h) (by decide)
  · exact lt_of_le_of_lt (mono h) (by decide)
  · exact lt_of_le_of_lt (mono h) (by decide)
  all_goals decide

theorem headerSafe {c : Char} (h : isAddressChar c = true) : HeaderSafe c := by
  have ascii := isAddressChar_ascii h
  obtain ⟨comma, blank, visible, legal⟩ :=
    headerSafe_ascii ⟨c.toNat, ascii⟩ (by simpa only [Char.ofNat_toNat] using h)
  simp only [Char.ofNat_toNat] at comma blank
  exact ⟨ascii, comma, blank, visible, legal⟩

namespace IpEntry

def bytes (e : IpEntry) : Bytes := e.text.map fun c => UInt8.ofNat c.toNat

theorem plain (e : IpEntry) : ∀ c ∈ e.text, isAddressChar c = true := parseAddress_plain e.parses

theorem bytes_visible (e : IpEntry) : ∀ b ∈ e.bytes, isVisibleAscii b = true := by
  intro b hb
  obtain ⟨c, hc, rfl⟩ := List.mem_map.mp hb
  exact (headerSafe (e.plain c hc)).visible

theorem bytes_legal (e : IpEntry) : ∀ b ∈ e.bytes, isHeaderByte b = true := by
  intro b hb
  obtain ⟨c, hc, rfl⟩ := List.mem_map.mp hb
  exact (headerSafe (e.plain c hc)).legal

theorem asciiText_bytes (e : IpEntry) : asciiText e.bytes = e.text := by
  rw [asciiText, bytes, List.map_map]
  refine (List.map_congr_left fun c hc => ?_).trans (List.map_id _)
  have ascii := (headerSafe (e.plain c hc)).ascii
  rw [Function.comp_apply, UInt8.toNat_ofNat_of_lt' (lt_trans ascii (by decide)), Char.ofNat_toNat]
  rfl

theorem text_ne_nil (e : IpEntry) : e.text ≠ [] := by
  intro h
  have := e.parses
  rw [h] at this
  cases this

/-- The line a proxy creates when there is none. -/
def line (e : IpEntry) : HeaderValue := ⟨e.bytes, e.bytes_legal⟩

/-- The line extended with `, ip`. -/
def extend (v : HeaderValue) (e : IpEntry) : HeaderValue where
  bytes := v.bytes ++ 44 :: 32 :: e.bytes
  legal := by
    intro b hb
    obtain hb | hb := List.mem_append.mp hb
    · exact v.legal b hb
    · obtain rfl | hb := List.mem_cons.mp hb
      · decide
      · obtain rfl | hb := List.mem_cons.mp hb
        · decide
        · exact e.bytes_legal b hb

end IpEntry

def appendEntry : List HeaderValue → IpEntry → List HeaderValue
  | [], e => [e.line]
  | [v], e => [e.extend v]
  | v :: w :: rest, e => v :: appendEntry (w :: rest) e

/-- The request as it arrives: the client's headers after each proxy in turn
appended its entry, and the peer of the last connection. -/
def received (headers : HeaderMap) (proxies : List IpEntry) (peer : Option SocketAddr) : Parts :=
  ⟨headers.setAll X_FORWARDED_FOR
    (proxies.foldl appendEntry (headers.getAll X_FORWARDED_FOR)), peer⟩

/-- The entries one decoded line contributes. -/
def lineEntries (text : List Char) : List (List Char) :=
  ((text.splitOn ',').map trim).filter (· ≠ [])

theorem forwardedEntries_append (lines lines' : List HeaderValue) :
    forwardedEntries (lines ++ lines') = forwardedEntries lines ++ forwardedEntries lines' := by
  simp [forwardedEntries]

theorem forwardedEntries_singleton (v : HeaderValue) :
    forwardedEntries [v] = (v.toStr.map lineEntries).getD [] := by
  cases h : v.toStr <;> simp [forwardedEntries, lineEntries, h]

theorem lineEntries_entry (e : IpEntry) : lineEntries e.text = [e.text] := by
  have comma : ',' ∉ e.text := fun h => (headerSafe (e.plain _ h)).notComma rfl
  rw [lineEntries, List.splitOn_eq_singleton comma, List.map_singleton,
    trim_of_none fun c hc => (headerSafe (e.plain c hc)).notBlank]
  simp [e.text_ne_nil]

/-- Extending a line adds one entry, whatever the line held. -/
theorem lineEntries_extend (text : List Char) (e : IpEntry) :
    lineEntries (text ++ ',' :: ' ' :: e.text) = lineEntries text ++ [e.text] := by
  have comma : ',' ∉ ' ' :: e.text := by
    rintro (_ | ⟨_, h⟩)
    exact (headerSafe (e.plain _ h)).notComma rfl
  have blank : trim (' ' :: e.text) = e.text :=
    trim_of_none fun c hc => (headerSafe (e.plain c hc)).notBlank
  rw [lineEntries, List.splitOn_append_cons_self, List.splitOn_eq_singleton comma,
    List.map_append, List.filter_append, lineEntries, List.map_singleton, blank]
  simp [e.text_ne_nil]

theorem toStr_line (e : IpEntry) : e.line.toStr = some e.text := by
  have visible : e.line.bytes.all isVisibleAscii = true := List.all_eq_true.mpr e.bytes_visible
  rw [HeaderValue.toStr, if_pos visible]
  exact congrArg some e.asciiText_bytes

theorem toStr_extend (e : IpEntry) (v : HeaderValue) :
    (e.extend v).toStr = v.toStr.map (· ++ ',' :: ' ' :: e.text) := by
  have visible : (e.extend v).bytes.all isVisibleAscii = v.bytes.all isVisibleAscii := by
    rw [IpEntry.extend, List.all_append, List.all_cons, List.all_cons,
      List.all_eq_true.mpr e.bytes_visible]
    simp [isVisibleAscii]
  rw [HeaderValue.toStr, visible, HeaderValue.toStr]
  split
  · have text := e.asciiText_bytes
    rw [asciiText] at text
    simp only [IpEntry.extend, asciiText, List.map_append, List.map_cons, Option.map_some, text]
    rfl
  · rfl

theorem foldl_appendEntry (proxies : List IpEntry) (init : List HeaderValue) (v : HeaderValue) :
    proxies.foldl appendEntry (init ++ [v]) =
      init ++ [proxies.foldl (fun v e => e.extend v) v] := by
  have one : ∀ (init : List HeaderValue) (v : HeaderValue) (e : IpEntry),
      appendEntry (init ++ [v]) e = init ++ [e.extend v] := by
    intro init v e
    induction init with
    | nil => rfl
    | cons w rest ih =>
      cases rest with
      | nil => rfl
      | cons w' rest => exact congrArg (w :: ·) ih
  induction proxies generalizing v with
  | nil => rfl
  | cons e rest ih => rw [List.foldl_cons, one, ih, List.foldl_cons]

/-- The entries of the line the proxies extended: all of them, or none. -/
theorem entries_extended (proxies : List IpEntry) (v : HeaderValue) :
    forwardedEntries [proxies.foldl (fun v e => e.extend v) v] =
      (v.toStr.map fun text => lineEntries text ++ proxies.map (·.text)).getD [] := by
  induction proxies generalizing v with
  | nil => rw [List.foldl_nil, forwardedEntries_singleton]; cases v.toStr <;> simp
  | cons e rest ih =>
    rw [List.foldl_cons, ih, toStr_extend]
    cases v.toStr <;> simp [lineEntries_extend]

/-- The line the proxies extend decodes, or there is none. -/
def LastLineDecodes (lines : List HeaderValue) : Prop :=
  ∀ v, lines.getLast? = some v → v.toStr ≠ none

theorem entries_received {lines : List HeaderValue} (decodes : LastLineDecodes lines)
    (first : IpEntry) (rest : List IpEntry) :
    forwardedEntries ((first :: rest).foldl appendEntry lines) =
      forwardedEntries lines ++ (first :: rest).map (·.text) := by
  obtain rfl | ⟨init, v, rfl⟩ := List.eq_nil_or_concat lines
  · have := foldl_appendEntry rest [] first.line
    rw [List.nil_append, List.nil_append] at this
    rw [List.foldl_cons, appendEntry, this, entries_extended, toStr_line]
    simp [lineEntries_entry, forwardedEntries]
  · rw [List.concat_eq_append] at *
    rw [foldl_appendEntry, forwardedEntries_append, entries_extended, forwardedEntries_append,
      forwardedEntries_singleton]
    cases hv : v.toStr with
    | none => exact absurd hv (decodes v (by simp))
    | some text => simp

theorem entries_lost {lines : List HeaderValue} (lost : ¬ LastLineDecodes lines)
    (proxies : List IpEntry) :
    forwardedEntries (proxies.foldl appendEntry lines) = forwardedEntries lines := by
  simp only [LastLineDecodes, not_forall, not_not] at lost
  obtain ⟨v, last, hv⟩ := lost
  obtain ⟨init, rfl⟩ := List.getLast?_eq_some_iff.mp last
  rw [foldl_appendEntry, forwardedEntries_append, entries_extended, forwardedEntries_append,
    forwardedEntries_singleton, hv]
  rfl

/-- The key is the first appended address or the peer. -/
def Unsteered (key : Option String) (first : IpEntry) (peer : Option SocketAddr) : Prop :=
  key = some first.ip.toText ∨ key = peer.map (·.ip.toText)

theorem parseForwardedIp_entry (e : IpEntry) : parseForwardedIp e.text = some e.ip.toText := by
  rw [parseForwardedIp, trim_of_none fun c hc => (headerSafe (e.plain c hc)).notBlank, e.parses]
  rfl

theorem entryFromRight_append (entries : List (List Char)) (entry : List Char)
    (rest : List (List Char)) :
    entryFromRight (entries ++ entry :: rest) (rest.length + 1) = some entry := by
  have index : (entries ++ entry :: rest).length - (rest.length + 1) = entries.length := by
    rw [List.length_append, List.length_cons]
    omega
  rw [entryFromRight, if_pos (by rw [List.length_append, List.length_cons]; omega), index]
  simp

/-- **Steered exactly when the last line is lost.** The key is the first appended
address or the peer if and only if the client's last line decodes, or the entry the
count then reaches in the client's other lines is missing, unreadable, or names the
same address. -/
theorem unsteered_iff (headers : HeaderMap) (first : IpEntry) (rest : List IpEntry)
    (peer : Option SocketAddr) :
    Unsteered ((ForwardedIpKey.new (rest.length + 1)).extractKey
        (received headers (first :: rest) peer)) first peer ↔
      (LastLineDecodes (headers.getAll X_FORWARDED_FOR) ∨
        ∀ entry, entryFromRight (forwardedEntries (headers.getAll X_FORWARDED_FOR))
            (rest.length + 1) = some entry →
          ∀ ip, parseForwardedIp entry = some ip → Unsteered (some ip) first peer) := by
  have hops : (ForwardedIpKey.new (rest.length + 1)).trustedHops = rest.length + 1 :=
    Nat.max_eq_left (Nat.le_add_left 1 _)
  simp only [ForwardedIpKey.extractKey, received, HeaderMap.getAll_setAll, hops]
  by_cases decodes : LastLineDecodes (headers.getAll X_FORWARDED_FOR)
  · have selected := entryFromRight_append (forwardedEntries (headers.getAll X_FORWARDED_FOR))
      first.text (rest.map (·.text))
    rw [List.length_map] at selected
    rw [entries_received decodes, List.map_cons, selected, Option.bind_some,
      parseForwardedIp_entry]
    exact ⟨fun _ => Or.inl decodes, fun _ => Or.inl rfl⟩
  · rw [entries_lost decodes]
    cases entryFromRight (forwardedEntries (headers.getAll X_FORWARDED_FOR)) (rest.length + 1) with
    | none => exact ⟨fun _ => Or.inr (fun _ h => nomatch h), fun _ => Or.inr rfl⟩
    | some entry =>
      rw [Option.bind_some]
      cases hip : parseForwardedIp entry with
      | none =>
        refine ⟨fun _ => Or.inr fun _ h ip h' => ?_, fun _ => Or.inr rfl⟩
        cases h
        rw [hip] at h'
        cases h'
      | some ip =>
        constructor
        · intro h
          refine Or.inr fun _ he ip' h' => ?_
          cases he
          rw [hip] at h'
          cases h'
          exact h
        · intro h
          exact (h.resolve_left decodes) entry rfl ip hip

/-- Two client lines, `6.6.6.6` and the single byte 0x80, and one proxy that saw
`9.9.9.9`: the proxy's entry goes down with the second line. -/
def spoofedHeaders : HeaderMap :=
  [(X_FORWARDED_FOR, .ofBytes [54, 46, 54, 46, 54, 46, 54] (by decide)),
    (X_FORWARDED_FOR, .ofBytes [128] (by decide))]

def observedClient : IpEntry :=
  ⟨['9', '.', '9', '.', '9', '.', '9'], .v4 [9, 9, 9, 9], by decide⟩

theorem spoofed_key : ¬ Unsteered
    ((ForwardedIpKey.new 1).extractKey
      (received spoofedHeaders [observedClient] (some ⟨.v4 [10, 0, 0, 1], 443⟩)))
    observedClient (some ⟨.v4 [10, 0, 0, 1], 443⟩) := by
  have key : (ForwardedIpKey.new 1).extractKey
      (received spoofedHeaders [observedClient] (some ⟨.v4 [10, 0, 0, 1], 443⟩)) =
      some (IpAddr.v4 [6, 6, 6, 6]).toText := by
    simp only [ForwardedIpKey.extractKey, received, HeaderMap.getAll_setAll]
    rfl
  rw [key, Unsteered, Option.some.injEq, Option.map_some, Option.some.injEq]
  simp only [IpAddr.toText, String.ofList_inj]
  decide

end RustyGasket
