import KvServer.Proofs.Request.Grammar

/-!
# Replies are told apart

A reply is told from its wire form, whatever stands behind it, up to the line ends in its text. So a
client takes a stream of replies apart in one way only, and no text or byte string that found its way
into a reply can look like the end of that reply or the start of another.

* `Reply.clean`, a reply as it arrives: with a space for each line end in a text, at any depth
* `Reply.encode_eq_line`: a wire form is a line under the tag of the reply and what it announces
* `Reply.encode_append_inj`: the replies and what stands behind them are told apart
* `Reply.wire_unambiguous`: the same for lists of replies, and for those read off the front of a stream
-/

namespace KvServer

open Bytes (cr crlf)

namespace Reply

/-! ## What arrives -/

mutual

/-- A reply with a space for each line end in its texts. -/
def clean : Reply → Reply
  | .status text => .status (lineText text)
  | .error text => .error (lineText text)
  | .integer value => .integer value
  | .bulk data => .bulk data
  | .null => .null
  | .array items => .array (cleanAll items)
  | .nullArray => .nullArray

def cleanAll : List Reply → List Reply
  | [] => []
  | item :: items => clean item :: cleanAll items

end

theorem cleanAll_eq_map (items : List Reply) : cleanAll items = items.map clean := by
  induction items with
  | nil => rfl
  | cons item items ih => rw [cleanAll, ih, List.map_cons]

theorem length_cleanAll (items : List Reply) : (cleanAll items).length = items.length := by
  rw [cleanAll_eq_map, List.length_map]

theorem not_mem_lineText {text : String} {c : Char} (ends : c = '\r' ∨ c = '\n') :
    c ∉ (lineText text).toList := by
  intro member
  simp only [lineText, String.toList_ofList, List.mem_map] at member
  obtain ⟨written, -, same⟩ := member
  split at same
  next => subst same; revert ends; decide
  next other => subst same; exact other ends

theorem lineText_lineText (text : String) : lineText (lineText text) = lineText text := by
  have plain : ∀ c ∈ (lineText text).toList, ¬(c = '\r' ∨ c = '\n') :=
    fun c member ends => not_mem_lineText ends member
  rw [lineText, List.map_congr_left fun c member => if_neg (plain c member), List.map_id',
    String.ofList_toList]

mutual

theorem encode_clean : ∀ reply : Reply, reply.clean.encode = reply.encode
  | .status text => by rw [clean, encode, encode, lineText_lineText]
  | .error text => by rw [clean, encode, encode, lineText_lineText]
  | .array items => by rw [clean, encode, encode, length_cleanAll, encodeAll_cleanAll items]
  | .integer _ | .bulk _ | .null | .nullArray => rfl

theorem encodeAll_cleanAll : ∀ items : List Reply, encodeAll (cleanAll items) = encodeAll items
  | [] => rfl
  | item :: items => by
    rw [cleanAll, encodeAll, encodeAll, encode_clean item, encodeAll_cleanAll items]

end

theorem encodeAll_map_clean (replies : List Reply) :
    encodeAll (replies.map clean) = encodeAll replies := by
  rw [← cleanAll_eq_map, encodeAll_cleanAll]

/-! ## The first line of a reply -/

def tag : Reply → Tag
  | .status _ => .status
  | .error _ => .error
  | .integer _ => .integer
  | .bulk _ | .null => .bulk
  | .array _ | .nullArray => .array

/-- What the first line says behind the tag. -/
def head : Reply → Bytes
  | .status text | .error text => Utf8.encode (lineText text)
  | .integer value => Decimal.ofInt value.toInt
  | .bulk data => Decimal.ofInt data.length
  | .array items => Decimal.ofInt items.length
  | .null | .nullArray => Decimal.ofInt (-1)

/-- What the first line announces. -/
def announced : Reply → Bytes
  | .bulk data => data ++ crlf
  | .array items => encodeAll items
  | _ => []

theorem encode_eq_line (reply : Reply) :
    reply.encode = line reply.tag reply.head ++ reply.announced := by
  cases reply <;> simp [encode, header, tag, head, announced]

theorem encode_ne_nil (reply : Reply) : reply.encode ≠ [] := by
  rw [encode_eq_line, line]
  exact List.cons_ne_nil _ _

theorem cr_not_mem_lineText (text : String) : cr ∉ Utf8.encode (lineText text) := by
  intro member
  obtain ⟨c, inside, same⟩ := Utf8.exists_mem_of_mem_encode member (by decide)
  exact not_mem_lineText (.inl (Char.toNat_inj.1 same)) inside

theorem cr_not_mem_head (reply : Reply) : cr ∉ reply.head := by
  cases reply with
  | status text | error text => exact cr_not_mem_lineText text
  | integer | bulk | array | null | nullArray => exact (Decimal.numeral_ofInt _).cr_not_mem

/-- The first line of a reply is found again, whatever is behind it. -/
theorem split_encode {reply other : Reply} {rest rest' : Bytes}
    (same : reply.encode ++ rest = other.encode ++ rest') :
    reply.tag = other.tag ∧ reply.head = other.head ∧
      reply.announced ++ rest = other.announced ++ rest' := by
  rw [encode_eq_line, encode_eq_line, List.append_assoc, List.append_assoc] at same
  obtain ⟨text, behind⟩ := line_append_inj (cr_not_mem_cons reply.cr_not_mem_head)
    (cr_not_mem_cons other.cr_not_mem_head) same
  obtain ⟨tagged, head⟩ := List.cons.inj text
  exact ⟨Tag.byte_injective tagged, head, behind⟩

/-- A null is announced by what no size is written as. -/
theorem size_ne_absent (size : Nat) : Decimal.ofInt size ≠ Decimal.ofInt (-1) := by
  intro same
  have := Decimal.ofInt_injective same
  omega

/-! ## Replies are told apart -/

mutual

/-- A reply is told from its wire form, whatever stands behind it. -/
theorem encode_append_inj : ∀ {reply other : Reply} {rest rest' : Bytes},
    reply.encode ++ rest = other.encode ++ rest' → reply.clean = other.clean ∧ rest = rest'
  | .status text, other, rest, rest', same => by
    obtain ⟨tags, head, behind⟩ := split_encode same
    cases other with
    | status text' => exact ⟨congrArg Reply.status (Utf8.encode_injective head), behind⟩
    | error | integer | bulk | null | array | nullArray => cases tags
  | .error text, other, rest, rest', same => by
    obtain ⟨tags, head, behind⟩ := split_encode same
    cases other with
    | error text' => exact ⟨congrArg Reply.error (Utf8.encode_injective head), behind⟩
    | status | integer | bulk | null | array | nullArray => cases tags
  | .integer value, other, rest, rest', same => by
    obtain ⟨tags, head, behind⟩ := split_encode same
    cases other with
    | integer value' =>
      exact ⟨congrArg Reply.integer (Int64.toInt_inj.1 (Decimal.ofInt_injective head)), behind⟩
    | status | error | bulk | null | array | nullArray => cases tags
  | .bulk data, other, rest, rest', same => by
    obtain ⟨tags, head, behind⟩ := split_encode same
    cases other with
    | bulk data' =>
      -- Both payloads are as long as the line says, so it cannot matter what is in them.
      have size : data.length = data'.length := Int.ofNat_inj.1 (Decimal.ofInt_injective head)
      simp only [announced, List.append_assoc] at behind
      obtain ⟨rfl, ends⟩ := List.append_inj behind size
      exact ⟨rfl, List.append_cancel_left ends⟩
    | null => exact absurd head (size_ne_absent data.length)
    | status | error | integer | array | nullArray => cases tags
  | .null, other, rest, rest', same => by
    obtain ⟨tags, head, behind⟩ := split_encode same
    cases other with
    | null => exact ⟨rfl, behind⟩
    | bulk data => exact absurd head.symm (size_ne_absent data.length)
    | status | error | integer | array | nullArray => cases tags
  | .array items, other, rest, rest', same => by
    obtain ⟨tags, head, behind⟩ := split_encode same
    cases other with
    | array items' =>
      have size : items.length = items'.length := Int.ofNat_inj.1 (Decimal.ofInt_injective head)
      obtain ⟨cleaned, rest⟩ := encodeAll_append_inj size behind
      exact ⟨congrArg Reply.array cleaned, rest⟩
    | nullArray => exact absurd head (size_ne_absent items.length)
    | status | error | integer | bulk | null => cases tags
  | .nullArray, other, rest, rest', same => by
    obtain ⟨tags, head, behind⟩ := split_encode same
    cases other with
    | nullArray => exact ⟨rfl, behind⟩
    | array items => exact absurd head.symm (size_ne_absent items.length)
    | status | error | integer | bulk | null => cases tags

theorem encodeAll_append_inj : ∀ {items others : List Reply} {rest rest' : Bytes},
    items.length = others.length → encodeAll items ++ rest = encodeAll others ++ rest' →
      cleanAll items = cleanAll others ∧ rest = rest'
  | [], [], _, _, _, same => ⟨rfl, same⟩
  | item :: items, other :: others, rest, rest', length, same => by
    simp only [encodeAll, List.append_assoc] at same
    obtain ⟨first, behind⟩ := encode_append_inj same
    obtain ⟨later, rest⟩ := encodeAll_append_inj (Nat.succ.inj length) behind
    exact ⟨congrArg₂ List.cons first later, rest⟩

end

theorem encode_append_eq_iff {reply other : Reply} {rest rest' : Bytes} :
    reply.encode ++ rest = other.encode ++ rest' ↔ reply.clean = other.clean ∧ rest = rest' := by
  constructor
  · exact encode_append_inj
  · rintro ⟨cleaned, rfl⟩
    rw [← encode_clean reply, cleaned, encode_clean]

/-! ## Streams of replies -/

/-- Replies read off the front of a stream are the first of those that were sent. -/
theorem encodeAll_append_eq_iff {read sent : List Reply} {rest : Bytes} :
    encodeAll read ++ rest = encodeAll sent ↔
      ∃ unread, (read ++ unread).map clean = sent.map clean ∧ rest = encodeAll unread := by
  induction read generalizing sent with
  | nil =>
    constructor
    · rintro rfl
      exact ⟨sent, rfl, rfl⟩
    · rintro ⟨unread, cleaned, rfl⟩
      show encodeAll unread = encodeAll sent
      rw [← encodeAll_map_clean unread, ← encodeAll_map_clean sent]
      exact congrArg encodeAll cleaned
  | cons reply read ih =>
    cases sent with
    | nil =>
      -- A reply is never written as nothing.
      refine iff_of_false (fun same => ?_) (fun ⟨_, cleaned, _⟩ => by cases cleaned)
      simp only [encodeAll, List.append_eq_nil_iff] at same
      exact reply.encode_ne_nil same.1.1
    | cons first sent =>
      simp only [encodeAll, List.append_assoc, encode_append_eq_iff, ih, List.cons_append,
        List.map_cons, List.cons.injEq]
      constructor
      · rintro ⟨cleaned, unread, later, rest⟩
        exact ⟨unread, ⟨cleaned, later⟩, rest⟩
      · rintro ⟨unread, ⟨cleaned, later⟩, rest⟩
        exact ⟨cleaned, unread, later, rest⟩

theorem encodeAll_eq_nil_iff {replies : List Reply} : encodeAll replies = [] ↔ replies = [] := by
  cases replies with
  | nil => simp [encodeAll]
  | cons reply replies => simp [encodeAll, reply.encode_ne_nil]

/-- A stream of replies is taken apart in one way only, up to the line ends in texts: the replies, what
stands behind one of them, those read off the front of the stream, and the kind of each. -/
theorem wire_unambiguous :
    (∀ replies others : List Reply,
      encodeAll replies = encodeAll others ↔ replies.map clean = others.map clean) ∧
    (∀ (reply other : Reply) (rest rest' : Bytes),
      reply.encode ++ rest = other.encode ++ rest' ↔ reply.clean = other.clean ∧ rest = rest') ∧
    (∀ (read sent : List Reply) (rest : Bytes), encodeAll read ++ rest = encodeAll sent ↔
      ∃ unread, (read ++ unread).map clean = sent.map clean ∧ rest = encodeAll unread) ∧
    ∀ reply : Reply, reply.clean.tag = reply.tag ∧ reply.clean.isNull = reply.isNull := by
  refine ⟨fun replies others => ?_, fun _ _ _ _ => encode_append_eq_iff,
    fun _ _ _ => encodeAll_append_eq_iff, fun reply => ?_⟩
  · rw [← List.append_nil (encodeAll replies), encodeAll_append_eq_iff]
    constructor
    · rintro ⟨unread, cleaned, nothing⟩
      rw [encodeAll_eq_nil_iff.1 nothing.symm, List.append_nil] at cleaned
      exact cleaned
    · intro cleaned
      exact ⟨[], by rwa [List.append_nil], rfl⟩
  · cases reply <;> exact ⟨rfl, rfl⟩

end Reply

end KvServer
