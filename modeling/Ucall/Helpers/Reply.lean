import Ucall.Shared
import Mathlib.Data.Nat.Digits
import Mathlib.Data.List.DropRight
/-
  The reply encoders of `helpers/reply.hpp`.

  A JSON-RPC reply is never concatenated.  `fill_with_content` and `fill_with_error` fill an
  array of `iovec`s — the fixed protocol fragments interleaved with the caller's id, body,
  code and message — and return the reply's length; `iovecs_length<N>` sums the lengths of `N`
  of them and `iovecs_memcpy<N>` copies them into one buffer when the transport cannot write
  vectored.  `fill_with_content` sums its five `iov_len`s, while `fill_with_error` recomputes
  its total from separate constants (`22 + … + 3 + append_comma`).  The envelope theorem
  (`fill_envelopes`) pins both: what `iovecs_memcpy` writes is exactly the JSON-RPC envelope,
  and the returned length is `iovecs_length` and the number of bytes written.

  Over HTTP the reply is preceded by the 78-byte header `http_header_k`, whose
  `Content-Length` field is blank; `set_http_content_length` writes the length there with
  `std::to_chars`, into the 9 bytes from offset 33.  The patch ROUND-TRIPS
  (`setHttpContentLength_round_trip`): it succeeds exactly below `10^9`, touches only the bytes
  holding the digits, and the patched `Content-Length` line reads back as the length.  It
  relies on a blank field: patched again, a header keeps the old length's surplus digits
  (`setHttpContentLength_keeps_stale_digits`).

  An `iovec` is its `iov_len` and the bytes from `iov_base` on, as far as the object it points
  into goes; a `char const*` literal is its characters.  Text is `List Char`, one `Char` a byte.
-/

namespace Ucall

/-! ## `iovec`s and the envelopes -/

/-- A `struct iovec`: the bytes at `iov_base`, and `iov_len`. -/
structure Iovec where
  base : List Char
  len : Nat
  deriving DecidableEq, Repr

/-- `iovecs_length<n>`: the sum of the first `n` lengths. -/
def iovecsLength (n : Nat) (iovecs : List Iovec) : Nat :=
  ((iovecs.take n).map Iovec.len).sum

/-- `iovecs_memcpy<n>`: what the first `n` `memcpy`s write, one after the other. -/
def iovecsMemcpy (n : Nat) (iovecs : List Iovec) : List Char :=
  (iovecs.take n).flatMap fun v => v.base.take v.len

/-- `fill_with_content`: the five `iovec`s of a success reply, and its length. -/
def fillWithContent (requestId body : List Char) (appendComma : Bool) : List Iovec × Nat :=
  let responseProtocolPrefixK := "\x7b\"jsonrpc\":\"2.0\",\"id\":".toList
  let resultSeparator := ",\"result\":".toList
  let protocolSuffix := "\x7d,".toList
  let b₀ : Iovec := ⟨responseProtocolPrefixK, 22⟩
  let b₁ : Iovec := ⟨requestId, requestId.length⟩
  let b₂ : Iovec := ⟨resultSeparator, 10⟩
  let b₃ : Iovec := ⟨body, body.length⟩
  let b₄ : Iovec := ⟨protocolSuffix, 1 + appendComma.toNat⟩
  ([b₀, b₁, b₂, b₃, b₄], b₀.len + b₁.len + b₂.len + b₃.len + b₄.len)

/-- `fill_with_error`: the seven `iovec`s of an error reply, and its length recomputed from
    the fragments' sizes. -/
def fillWithError (requestId errorCode errorMessage : List Char) (appendComma : Bool) :
    List Iovec × Nat :=
  let responseProtocolPrefixK := "\x7b\"jsonrpc\":\"2.0\",\"id\":".toList
  let errorCodeSeparator := ",\"error\":\x7b\"code\":".toList
  let errorMessageSeparator := ",\"message\":\"".toList
  let protocolSuffix := "\"\x7d\x7d,".toList
  ([⟨responseProtocolPrefixK, 22⟩, ⟨requestId, requestId.length⟩, ⟨errorCodeSeparator, 17⟩,
      ⟨errorCode, errorCode.length⟩, ⟨errorMessageSeparator, 12⟩,
      ⟨errorMessage, errorMessage.length⟩, ⟨protocolSuffix, 3 + appendComma.toNat⟩],
    22 + requestId.length + 17 + errorCode.length + 12 + errorMessage.length + 3 +
      appendComma.toNat)

/-- `iovecs_memcpy` writes `iovecs_length` bytes when no `iov_len` runs past its base. -/
theorem length_iovecsMemcpy :
    ∀ (n : Nat) (vs : List Iovec), (∀ v ∈ vs, v.len ≤ v.base.length) →
      (iovecsMemcpy n vs).length = iovecsLength n vs
  | 0, _, _ => rfl
  | _ + 1, [], _ => rfl
  | n + 1, v :: vs, h => by
    have ih := length_iovecsMemcpy n vs fun w hw => h w (List.mem_cons_of_mem _ hw)
    simp only [iovecsMemcpy, iovecsLength, List.take_succ_cons, List.flatMap_cons,
      List.length_append, List.length_take, List.map_cons, List.sum_cons] at ih ⊢
    rw [ih, Nat.min_eq_left (h v (List.mem_cons_self _ _))]

section Envelopes

variable (requestId body errorCode errorMessage : List Char) (appendComma : Bool)

theorem iovecsMemcpy_fillWithContent :
    iovecsMemcpy 5 (fillWithContent requestId body appendComma).1 =
      "\x7b\"jsonrpc\":\"2.0\",\"id\":".toList ++ requestId ++ ",\"result\":".toList ++ body ++
        ['\x7d'] ++ (if appendComma then [','] else []) := by
  cases appendComma <;>
    simp only [fillWithContent, iovecsMemcpy, List.take_succ_cons, List.take_zero, List.flatMap_cons,
      List.flatMap_nil, List.take_length, List.append_nil, List.append_assoc, Bool.toNat_true,
      Bool.toNat_false] <;>
    rfl

theorem iovecsMemcpy_fillWithError :
    iovecsMemcpy 7 (fillWithError requestId errorCode errorMessage appendComma).1 =
      "\x7b\"jsonrpc\":\"2.0\",\"id\":".toList ++ requestId ++ ",\"error\":\x7b\"code\":".toList ++
        errorCode ++ ",\"message\":\"".toList ++ errorMessage ++ "\"\x7d\x7d".toList ++
        (if appendComma then [','] else []) := by
  cases appendComma <;>
    simp only [fillWithError, iovecsMemcpy, List.take_succ_cons, List.take_zero, List.flatMap_cons,
      List.flatMap_nil, List.take_length, List.append_nil, List.append_assoc, Bool.toNat_true,
      Bool.toNat_false] <;>
    rfl

theorem fillWithContent_snd :
    (fillWithContent requestId body appendComma).2 =
      iovecsLength 5 (fillWithContent requestId body appendComma).1 := by
  simp only [fillWithContent, iovecsLength, List.take_succ_cons, List.take_zero, List.map_cons,
    List.map_nil, List.sum_cons, List.sum_nil]
  omega

theorem fillWithError_snd :
    (fillWithError requestId errorCode errorMessage appendComma).2 =
      iovecsLength 7 (fillWithError requestId errorCode errorMessage appendComma).1 := by
  simp only [fillWithError, iovecsLength, List.take_succ_cons, List.take_zero, List.map_cons,
    List.map_nil, List.sum_cons, List.sum_nil]
  omega

/-- No `iovec` of a reply claims more bytes than its fragment has. -/
theorem len_le_fillWithContent :
    ∀ v ∈ (fillWithContent requestId body appendComma).1, v.len ≤ v.base.length := by
  cases appendComma <;>
    simp only [fillWithContent, List.mem_cons, List.mem_nil_iff, or_false, forall_eq_or_imp,
      forall_eq, le_refl, true_and, Bool.toNat_true, Bool.toNat_false] <;>
    decide

theorem len_le_fillWithError :
    ∀ v ∈ (fillWithError requestId errorCode errorMessage appendComma).1, v.len ≤ v.base.length := by
  cases appendComma <;>
    simp only [fillWithError, List.mem_cons, List.mem_nil_iff, or_false, forall_eq_or_imp,
      forall_eq, le_refl, true_and, Bool.toNat_true, Bool.toNat_false] <;>
    decide

/-- **The reply encoders produce exactly the JSON-RPC envelopes.**  For every id, body, code,
    message and comma flag, `iovecs_memcpy` over the filled `iovec`s writes the success and the
    error envelope (with a trailing `,` exactly when asked), and each encoder's returned length
    is `iovecs_length` over its `iovec`s and the number of bytes written. -/
theorem fill_envelopes :
    iovecsMemcpy 5 (fillWithContent requestId body appendComma).1 =
        "\x7b\"jsonrpc\":\"2.0\",\"id\":".toList ++ requestId ++ ",\"result\":".toList ++ body ++
          ['\x7d'] ++ (if appendComma then [','] else []) ∧
      (fillWithContent requestId body appendComma).2 =
        iovecsLength 5 (fillWithContent requestId body appendComma).1 ∧
      (fillWithContent requestId body appendComma).2 =
        (iovecsMemcpy 5 (fillWithContent requestId body appendComma).1).length ∧
      iovecsMemcpy 7 (fillWithError requestId errorCode errorMessage appendComma).1 =
        "\x7b\"jsonrpc\":\"2.0\",\"id\":".toList ++ requestId ++ ",\"error\":\x7b\"code\":".toList ++
          errorCode ++ ",\"message\":\"".toList ++ errorMessage ++ "\"\x7d\x7d".toList ++
          (if appendComma then [','] else []) ∧
      (fillWithError requestId errorCode errorMessage appendComma).2 =
        iovecsLength 7 (fillWithError requestId errorCode errorMessage appendComma).1 ∧
      (fillWithError requestId errorCode errorMessage appendComma).2 =
        (iovecsMemcpy 7 (fillWithError requestId errorCode errorMessage appendComma).1).length :=
  ⟨iovecsMemcpy_fillWithContent .., fillWithContent_snd .., (fillWithContent_snd ..).trans
      (length_iovecsMemcpy 5 _ (len_le_fillWithContent requestId body appendComma)).symm,
    iovecsMemcpy_fillWithError .., fillWithError_snd .., (fillWithError_snd ..).trans
      (length_iovecsMemcpy 7 _
        (len_le_fillWithError requestId errorCode errorMessage appendComma)).symm⟩

end Envelopes

/-! ## `set_http_content_length` -/

/-- The character of a decimal digit. -/
def digitChar (d : Nat) : Char := Char.ofNat (48 + d)

/-- The characters `std::to_chars` writes for an unsigned value in base 10: the digits, most
    significant first, with no sign and no leading zero (`0` for zero). -/
def decimalDigits (n : Nat) : List Char :=
  if n = 0 then ['0'] else (Nat.digits 10 n).reverse.map digitChar

/-- `std::errc` as `std::to_chars` reports it: `std::errc()`, or `value_too_large`. -/
inductive Errc
  | success
  | valueTooLarge
  deriving DecidableEq, Repr

/-- `std::to_chars_result`: one past the last character written, and the error code. -/
structure ToCharsResult where
  ptr : Nat
  ec : Errc
  deriving DecidableEq, Repr

/-- `std::to_chars(first, last, value)` into `buf`, for an unsigned `value` in base 10: the
    digits go to `first` when they fit before `last`; otherwise `value_too_large` with
    `ptr = last`.  (The standard leaves `[first, last)` unspecified on failure; the model
    leaves it as it was.) -/
def toChars (buf : List Char) (first last value : Nat) : ToCharsResult × List Char :=
  let ds := decimalDigits value
  if ds.length ≤ last - first then
    (⟨first + ds.length, .success⟩, buf.take first ++ ds ++ buf.drop (first + ds.length))
  else (⟨last, .valueTooLarge⟩, buf)

/-- `http_header_k`: the HTTP header template with a blank `Content-Length` field. -/
def httpHeaderK : List Char :=
  "HTTP/1.1 200 OK\r\nContent-Length:          \r\nContent-Type: application/json\r\n\r\n".toList

/-- `http_header_length_offset_k`. -/
def httpHeaderLengthOffsetK : Nat := 33

/-- `http_header_length_capacity_k`. -/
def httpHeaderLengthCapacityK : Nat := 9

/-- `set_http_content_length(headers, content_len)`: `std::to_chars` into the 9 bytes from
    offset 33, `true` unless it reports an error. -/
def setHttpContentLength (headers : List Char) (contentLen : Nat) : Bool × List Char :=
  let (res, headers) := toChars headers httpHeaderLengthOffsetK
    (httpHeaderLengthOffsetK + httpHeaderLengthCapacityK) contentLen
  (if res.ec ≠ .success then false else true, headers)

/-! ### Reading the field back

  The other side of the wire: a `Content-Length` field line is the name, a colon, the value
  with optional whitespace (spaces and tabs) around it, and CRLF; the value is a nonempty
  string of decimal digits. -/

/-- Optional whitespace around an HTTP field value. -/
def isOws (c : Char) : Bool := c = ' ' || c = '\t'

/-- The number a nonempty string of decimal digits denotes, most significant digit first. -/
def decimalValue (cs : List Char) : Option Nat :=
  if cs ≠ [] ∧ cs.all Char.isDigit then some (cs.foldl (fun v c => 10 * v + (c.toNat - 48)) 0)
  else none

/-- The value of a `Content-Length` field line. -/
def parseContentLength (line : List Char) : Option Nat :=
  let name := "Content-Length:".toList
  if line.take name.length = name ∧ line.drop (line.length - 2) = ['\r', '\n'] then
    decimalValue (((line.drop name.length).dropLast.dropLast.dropWhile isOws).rdropWhile isOws)
  else none

/-! ### The digits -/

theorem digitChar_spec {d : Nat} (h : d < 10) :
    (digitChar d).isDigit = true ∧ isOws (digitChar d) = false ∧ (digitChar d).toNat - 48 = d := by
  have hall : ∀ e ∈ List.range 10, (digitChar e).isDigit = true ∧ isOws (digitChar e) = false ∧
      (digitChar e).toNat - 48 = e := by decide
  exact hall d (List.mem_range.mpr h)

theorem decimalDigits_spec {n : Nat} :
    decimalDigits n ≠ [] ∧ ∀ c ∈ decimalDigits n, c.isDigit = true ∧ isOws c = false := by
  unfold decimalDigits
  split
  · decide
  · refine ⟨by simpa using Nat.digits_ne_nil_iff_ne_zero.mpr ‹_›, fun c hc => ?_⟩
    obtain ⟨d, hd, rfl⟩ := List.mem_map.mp hc
    have := digitChar_spec (Nat.digits_lt_base (by decide) (List.mem_reverse.mp hd))
    exact ⟨this.1, this.2.1⟩

/-- The digits fit the 9-byte field exactly below `10^9`. -/
theorem length_decimalDigits_le_nine {n : Nat} :
    (decimalDigits n).length ≤ 9 ↔ n ≤ 999999999 := by
  unfold decimalDigits
  split
  · simp [*]
  · rw [List.length_map, List.length_reverse, Nat.digits_len 10 n (by decide) ‹_›]
    have h := @Nat.lt_pow_iff_log_lt 10 (by decide) 9 n ‹_›
    rw [show (10 : Nat) ^ 9 = 1000000000 from rfl] at h
    omega

/-- Reading digits most significant first accumulates `ofDigits`. -/
theorem foldl_digitChar (acc : Nat) :
    ∀ L : List Nat, (∀ d ∈ L, d < 10) →
      (L.reverse.map digitChar).foldl (fun v c => 10 * v + (c.toNat - 48)) acc =
        acc * 10 ^ L.length + Nat.ofDigits 10 L
  | [], _ => by simp
  | d :: L, h => by
    rw [List.reverse_cons, List.map_append, List.foldl_append,
      foldl_digitChar acc L fun e he => h e (List.mem_cons_of_mem _ he)]
    simp only [List.map_cons, List.map_nil, List.foldl_cons, List.foldl_nil,
      (digitChar_spec (h d (List.mem_cons_self _ _))).2.2, Nat.ofDigits_cons, List.length_cons,
      Nat.pow_succ]
    ring

theorem decimalValue_decimalDigits (n : Nat) : decimalValue (decimalDigits n) = some n := by
  obtain ⟨hne, hall⟩ := decimalDigits_spec (n := n)
  rw [decimalValue, if_pos ⟨hne, List.all_eq_true.mpr fun c hc => (hall c hc).1⟩]
  unfold decimalDigits
  split
  · simp [*]
  · rw [foldl_digitChar 0 _ fun d hd => Nat.digits_lt_base (by decide) hd, Nat.ofDigits_digits]
    simp

/-! ### The patched header -/

/-- The template: the status line and the field name with its space, 33 bytes, then the blank
    9-byte field, CRLF and the `Content-Type` line. -/
theorem httpHeaderK_split :
    httpHeaderK = ("HTTP/1.1 200 OK\r\n".toList ++ "Content-Length:".toList ++ [' ']) ++
      (List.replicate 9 ' ' ++ ['\r', '\n'] ++ "Content-Type: application/json\r\n\r\n".toList) := by
  decide

/-- Trailing optional whitespace goes, down to a last character that is not whitespace. -/
theorem rdropWhile_replicate {l : List Char} (hl : l ≠ []) (hlast : isOws (l.getLast hl) = false) :
    ∀ k, (l ++ List.replicate k ' ').rdropWhile isOws = l
  | 0 => by
    rw [List.replicate_zero, List.append_nil, ← List.dropLast_append_getLast hl,
      List.rdropWhile_concat_neg _ _ _ (by simpa using hlast)]
  | k + 1 => by
    rw [List.replicate_succ', ← List.append_assoc, List.rdropWhile_concat_pos _ _ _ (by decide),
      rdropWhile_replicate hl hlast k]

/-- A field line holding a digit string, padded with spaces, reads back as that string. -/
theorem parseContentLength_padded {ds : List Char} (hds : ds ≠ [])
    (hows : ∀ c ∈ ds, isOws c = false) (k : Nat) :
    parseContentLength ("Content-Length:".toList ++ (' ' :: (ds ++ List.replicate k ' ')) ++
      ['\r', '\n']) = decimalValue ds := by
  have hfront : (ds ++ List.replicate k ' ').dropWhile isOws = ds ++ List.replicate k ' ' := by
    obtain ⟨c, cs, rfl⟩ := List.exists_cons_of_ne_nil hds
    exact List.dropWhile_cons_of_neg (by simp [hows c (List.mem_cons_self _ _)])
  have hcrlf : ∀ l : List Char, (l ++ ['\r', '\n']).dropLast.dropLast = l := fun l => by
    rw [show l ++ ['\r', '\n'] = l ++ ['\r'] ++ ['\n'] by simp, List.dropLast_concat,
      List.dropLast_concat]
  unfold parseContentLength
  dsimp only
  have hname : (("Content-Length:".toList ++ (' ' :: (ds ++ List.replicate k ' '))) ++
      ['\r', '\n']).take 15 = "Content-Length:".toList := by
    rw [List.append_assoc]; exact List.take_left' rfl
  rw [if_pos ⟨hname, List.drop_left' (by
      rw [List.length_append _ ['\r', '\n']]; exact (Nat.add_sub_cancel _ 2).symm)⟩,
    List.append_assoc, List.drop_left, hcrlf, List.dropWhile_cons_of_pos (by decide), hfront,
    rdropWhile_replicate hds (hows _ (List.getLast_mem hds))]

/-- A header that differs from the template only in a field of up to 9 digits from offset 33
    reads back as that field. -/
theorem parseContentLength_field {D : List Char} (hD : D ≠ []) (hows : ∀ c ∈ D, isOws c = false)
    (hlen : D.length ≤ 9) :
    parseContentLength
        (((httpHeaderK.take 33 ++ D ++ httpHeaderK.drop (33 + D.length)).drop 17).take 27) =
      decimalValue D := by
  have hT33 : httpHeaderK.take 33 =
      "HTTP/1.1 200 OK\r\n".toList ++ "Content-Length:".toList ++ [' '] := by
    rw [httpHeaderK_split]; exact List.take_left' rfl
  have hTd : httpHeaderK.drop (33 + D.length) =
      List.replicate (9 - D.length) ' ' ++ ['\r', '\n'] ++
        "Content-Type: application/json\r\n\r\n".toList := by
    have h33 : httpHeaderK.drop 33 = List.replicate 9 ' ' ++ ['\r', '\n'] ++
        "Content-Type: application/json\r\n\r\n".toList := by
      rw [httpHeaderK_split]; exact List.drop_left' rfl
    rw [← List.drop_drop, h33, List.append_assoc,
      List.drop_append_of_le_length (by simpa using hlen), List.drop_replicate, List.append_assoc]
  have hline : (httpHeaderK.take 33 ++ D ++ httpHeaderK.drop (33 + D.length)).drop 17 =
      ("Content-Length:".toList ++ (' ' :: (D ++ List.replicate (9 - D.length) ' ')) ++
        ['\r', '\n']) ++ "Content-Type: application/json\r\n\r\n".toList := by
    rw [hT33, hTd]
    simp only [List.append_assoc, List.cons_append, List.nil_append]
    exact List.drop_left' rfl
  rw [hline, List.take_left' (by simp; omega), parseContentLength_padded hD hows]

/-- The first digit is `0` only for zero. -/
theorem decimalDigits_head {n : Nat} (h : (decimalDigits n).head? = some '0') : n = 0 := by
  unfold decimalDigits at h
  split at h
  · assumption
  · rw [List.head?_map, List.head?_reverse, Option.map_eq_some'] at h
    obtain ⟨d, hd, hc⟩ := h
    have hmem := List.mem_of_getLast?_eq_some hd
    have hd0 : d ≠ 0 := by
      rw [List.getLast?_eq_getLast _ (Nat.digits_ne_nil_iff_ne_zero.mpr ‹_›)] at hd
      exact Option.some.inj hd ▸ Nat.getLast_digit_ne_zero 10 ‹_›
    have := (digitChar_spec (Nat.digits_lt_base (by decide) hmem)).2.2
    rw [hc] at this
    exact absurd this.symm (by simpa using hd0)

theorem setHttpContentLength_fst (headers : List Char) (n : Nat) :
    (setHttpContentLength headers n).1 = true ↔ n ≤ 999999999 := by
  rw [← length_decimalDigits_le_nine]
  by_cases h : (decimalDigits n).length ≤ 9 <;>
    simp [setHttpContentLength, toChars, httpHeaderLengthOffsetK, httpHeaderLengthCapacityK, h]

theorem setHttpContentLength_snd {headers : List Char} {n : Nat} (hn : n ≤ 999999999) :
    (setHttpContentLength headers n).2 = headers.take 33 ++ decimalDigits n ++
      headers.drop (33 + (decimalDigits n).length) := by
  have := length_decimalDigits_le_nine.mpr hn
  simp [setHttpContentLength, toChars, httpHeaderLengthOffsetK, httpHeaderLengthCapacityK, this]

/-- **The `Content-Length` patch round-trips.**  For every `content_len`, patching a fresh copy
    of `http_header_k` succeeds exactly when `content_len ≤ 999 999 999`.  Then the header is
    still 78 bytes and differs from the template only in the `d` bytes from offset 33, which
    hold the decimal digits of the length (no sign, no leading zero); the status line and
    the `Content-Type` line are intact; and the `Content-Length` line, bytes 17 to 43, reads
    back, whitespace trimmed, as the length. -/
theorem setHttpContentLength_round_trip (n : Nat) :
    ((setHttpContentLength httpHeaderK n).1 = true ↔ n ≤ 999999999) ∧
      (n ≤ 999999999 →
        let h := (setHttpContentLength httpHeaderK n).2
        let d := (decimalDigits n).length
        h.length = 78 ∧ h.take 33 = httpHeaderK.take 33 ∧ (h.drop 33).take d = decimalDigits n ∧
          h.drop (33 + d) = httpHeaderK.drop (33 + d) ∧
          (∀ c ∈ decimalDigits n, c.isDigit = true) ∧ ((decimalDigits n).head? = some '0' → n = 0) ∧
          h.take 17 = httpHeaderK.take 17 ∧ h.drop 44 = httpHeaderK.drop 44 ∧
          parseContentLength ((h.drop 17).take 27) = some n) := by
  refine ⟨setHttpContentLength_fst _ n, fun hn => ?_⟩
  intro h d
  have hd : d ≤ 9 := length_decimalDigits_le_nine.mpr hn
  obtain ⟨hne, hall⟩ := decimalDigits_spec (n := n)
  have hh : h = httpHeaderK.take 33 ++ (decimalDigits n ++ httpHeaderK.drop (33 + d)) := by
    rw [← List.append_assoc]
    exact setHttpContentLength_snd hn
  have hlen33 : (httpHeaderK.take 33).length = 33 := rfl
  have h33 : h.take 33 = httpHeaderK.take 33 := by rw [hh, List.take_left' hlen33]
  have hdrop : h.drop (33 + d) = httpHeaderK.drop (33 + d) := by
    rw [hh, ← List.append_assoc, List.drop_left' (by rw [List.length_append, hlen33])]
  have hlen : h.length = 78 := by
    rw [hh, List.length_append, List.length_append, hlen33, List.length_drop,
      show httpHeaderK.length = 78 from rfl]
    omega
  refine ⟨hlen, h33, ?_, hdrop, fun c hc => (hall c hc).1, decimalDigits_head, ?_, ?_, ?_⟩
  · rw [hh, List.drop_left' hlen33, List.take_left' rfl]
  · -- the status line lies before the field
    have h17 : ∀ l : List Char, l.take 17 = (l.take 33).take 17 := fun l => by
      rw [List.take_take]; rfl
    rw [h17 h, h17 httpHeaderK, h33]
  · -- the `Content-Type` line lies after it
    have h44 : ∀ l : List Char, l.drop 44 = (l.drop (33 + d)).drop (11 - d) := fun l => by
      rw [List.drop_drop]; congr 1; omega
    rw [h44 h, h44 httpHeaderK, hdrop]
  · rw [hh, ← List.append_assoc, parseContentLength_field hne (fun c hc => (hall c hc).2) hd,
      decimalValue_decimalDigits]

/-- Patching the length `123`. -/
theorem setHttpContentLength_round_trip_123 :
    123 ≤ 999999999 ∧
      ((setHttpContentLength httpHeaderK 123).1 = true ↔ 123 ≤ 999999999) ∧
      (123 ≤ 999999999 →
        let h := (setHttpContentLength httpHeaderK 123).2
        let d := (decimalDigits 123).length
        h.length = 78 ∧ h.take 33 = httpHeaderK.take 33 ∧
          (h.drop 33).take d = decimalDigits 123 ∧ h.drop (33 + d) = httpHeaderK.drop (33 + d) ∧
          (∀ c ∈ decimalDigits 123, c.isDigit = true) ∧
          ((decimalDigits 123).head? = some '0' → 123 = 0) ∧
          h.take 17 = httpHeaderK.take 17 ∧ h.drop 44 = httpHeaderK.drop 44 ∧
          parseContentLength ((h.drop 17).take 27) = some 123) :=
  ⟨by decide, setHttpContentLength_round_trip 123⟩

/-! ### Patching a header twice

  `std::to_chars` writes the digits and nothing else, and `set_http_content_length` does not
  blank the rest of the 9-byte field first: it relies on a field of spaces, as in a fresh copy
  of `http_header_k`.  On a header that already holds a length, the old digits past the new
  ones stay. -/

/-- The `k` least significant digits of `m` are worth `m % 10^k`. -/
theorem ofDigits_take_digits {m k : Nat} (hk : k ≤ (Nat.digits 10 m).length) :
    Nat.ofDigits 10 ((Nat.digits 10 m).take k) = m % 10 ^ k := by
  have hlen : ((Nat.digits 10 m).take k).length = k := List.length_take_of_le hk
  have hlt :
      Nat.ofDigits 10 ((Nat.digits 10 m).take k) < 10 ^ ((Nat.digits 10 m).take k).length :=
    Nat.ofDigits_lt_base_pow_length (by decide) fun d hd =>
      Nat.digits_lt_base (by decide) (List.mem_of_mem_take hd)
  rw [hlen] at hlt
  conv_rhs => rw [← Nat.ofDigits_digits 10 m, ← List.take_append_drop k (Nat.digits 10 m),
    Nat.ofDigits_append, hlen, Nat.add_mul_mod_self_left, Nat.mod_eq_of_lt hlt]

/-- Reading the digits of `m` from position `i` on, after `acc`, shifts `acc` past them and adds
    what they are worth. -/
theorem foldl_drop_decimalDigits (acc m i : Nat) :
    ((decimalDigits m).drop i).foldl (fun v c => 10 * v + (c.toNat - 48)) acc =
      acc * 10 ^ ((decimalDigits m).length - i) + m % 10 ^ ((decimalDigits m).length - i) := by
  unfold decimalDigits
  split
  · subst_vars; cases i <;> simp [Nat.mul_comm]
  · rw [← List.map_drop, List.drop_reverse, List.length_map, List.length_reverse,
      foldl_digitChar acc _ fun d hd => Nat.digits_lt_base (by decide) (List.mem_of_mem_take hd),
      List.length_take_of_le (Nat.sub_le _ _), ofDigits_take_digits (Nat.sub_le _ _)]

/-- A field of the digits of `n` written over those of `m` holds digits only, no whitespace. -/
theorem overwrite_spec (m n k : Nat) :
    ∀ c ∈ decimalDigits n ++ (decimalDigits m).drop k, c.isDigit = true ∧ isOws c = false :=
  fun c hc => (List.mem_append.mp hc).elim (decimalDigits_spec.2 c)
    fun hc => decimalDigits_spec.2 c (List.mem_of_mem_drop hc)

/-- The digits of `n` written over those of `m` read as `n` followed by `m`'s surplus digits. -/
theorem decimalValue_overwrite (m n : Nat) :
    decimalValue (decimalDigits n ++ (decimalDigits m).drop (decimalDigits n).length) =
      some (n * 10 ^ ((decimalDigits m).length - (decimalDigits n).length) +
        m % 10 ^ ((decimalDigits m).length - (decimalDigits n).length)) := by
  obtain ⟨hne, hall⟩ := decimalDigits_spec (n := n)
  have hn := decimalValue_decimalDigits n
  rw [decimalValue, if_pos ⟨hne, List.all_eq_true.mpr fun c hc => (hall c hc).1⟩] at hn
  rw [decimalValue, if_pos ⟨by simp [hne],
      List.all_eq_true.mpr fun c hc => (overwrite_spec m n _ c hc).1⟩,
    List.foldl_append, Option.some.inj hn, foldl_drop_decimalDigits]

/-- The header after patching `m` and then `n`: the field holds the digits of `n`, then
    those of `m` past them. -/
theorem setHttpContentLength_twice {m n : Nat} (hm : m ≤ 999999999) (hn : n ≤ 999999999) :
    (setHttpContentLength (setHttpContentLength httpHeaderK m).2 n).2 =
      httpHeaderK.take 33 ++ (decimalDigits n ++ (decimalDigits m).drop (decimalDigits n).length) ++
        httpHeaderK.drop
          (33 + (decimalDigits n ++ (decimalDigits m).drop (decimalDigits n).length).length) := by
  have hlen33 : (httpHeaderK.take 33).length = 33 := rfl
  have h1 := @setHttpContentLength_snd httpHeaderK m hm
  rw [List.append_assoc] at h1
  have htake : (setHttpContentLength httpHeaderK m).2.take 33 = httpHeaderK.take 33 := by
    rw [h1, List.take_left' hlen33]
  have hdrop : (setHttpContentLength httpHeaderK m).2.drop (33 + (decimalDigits n).length) =
      (decimalDigits m).drop (decimalDigits n).length ++ httpHeaderK.drop
        (33 + ((decimalDigits n).length + ((decimalDigits m).length - (decimalDigits n).length))) := by
    rw [h1, List.drop_append_eq_append_drop, List.drop_eq_nil_of_le (by rw [hlen33]; omega),
      List.nil_append, hlen33, Nat.add_sub_cancel_left, List.drop_append_eq_append_drop,
      List.drop_drop]
    congr 2
    omega
  rw [setHttpContentLength_snd hn, htake, hdrop, List.length_append, List.length_drop,
    List.append_assoc, List.append_assoc, List.append_assoc]

/-- **`set_http_content_length` never clears the field.**  For all lengths `m` and `n` below
    `10^9`, patching `n` into a header that already holds `m` succeeds, the field then holds the
    digits of `n` followed by the last `k` digits of `m`, where `k` is how many more digits `m`
    has, and the `Content-Length` line reads back as `n * 10^k + m % 10^k`.  So it reads `n`
    only when `m` had no more digits than `n` (or its surplus digits are zeros and `n` is
    `0`); `1000` and then `5` reads `5000`. -/
theorem setHttpContentLength_keeps_stale_digits {m n : Nat} (hm : m ≤ 999999999)
    (hn : n ≤ 999999999) :
    (setHttpContentLength (setHttpContentLength httpHeaderK m).2 n).1 = true ∧
      ((setHttpContentLength (setHttpContentLength httpHeaderK m).2 n).2.drop 33).take
          (max (decimalDigits n).length (decimalDigits m).length) =
        decimalDigits n ++ (decimalDigits m).drop (decimalDigits n).length ∧
      parseContentLength
          (((setHttpContentLength (setHttpContentLength httpHeaderK m).2 n).2.drop 17).take 27) =
        some (n * 10 ^ ((decimalDigits m).length - (decimalDigits n).length) +
          m % 10 ^ ((decimalDigits m).length - (decimalDigits n).length)) := by
  have hdn := length_decimalDigits_le_nine.mpr hn
  have hdm := length_decimalDigits_le_nine.mpr hm
  have hlen33 : (httpHeaderK.take 33).length = 33 := rfl
  refine ⟨(setHttpContentLength_fst _ n).mpr hn, ?_, ?_⟩
  · rw [setHttpContentLength_twice hm hn, List.append_assoc, List.drop_left' hlen33,
      List.take_left' (by simp; omega)]
  · rw [setHttpContentLength_twice hm hn, parseContentLength_field
      (by simp [decimalDigits_spec.1]) (fun c hc => (overwrite_spec m n _ c hc).2) (by simp; omega),
      decimalValue_overwrite]

/-- `1000`, then `5`. -/
theorem setHttpContentLength_keeps_stale_digits_1000_5 :
    1000 ≤ 999999999 ∧ 5 ≤ 999999999 ∧
      (setHttpContentLength (setHttpContentLength httpHeaderK 1000).2 5).1 = true ∧
      ((setHttpContentLength (setHttpContentLength httpHeaderK 1000).2 5).2.drop 33).take
          (max (decimalDigits 5).length (decimalDigits 1000).length) =
        decimalDigits 5 ++ (decimalDigits 1000).drop (decimalDigits 5).length ∧
      parseContentLength
          (((setHttpContentLength (setHttpContentLength httpHeaderK 1000).2 5).2.drop 17).take 27) =
        some (5 * 10 ^ ((decimalDigits 1000).length - (decimalDigits 5).length) +
          1000 % 10 ^ ((decimalDigits 1000).length - (decimalDigits 5).length)) :=
  ⟨by decide, by decide, setHttpContentLength_keeps_stale_digits (by decide) (by decide)⟩

end Ucall
