import ExpiringCache.Proofs.Text.Quoted
import ExpiringCache.Proofs.Text.Utf8
import ExpiringCache.Remote.Url

/-!
# URLs are read in their parts

Letters, digits and the three characters `-`, `.` and `%` separate nothing in a URL
(`Plain`). What is made of them can stand in each part: a URL of a user name, a secret, a
host, a port and a path is read back in these parts (`Url.Spells.parse?_eq`).

Octets of any kind can be written in plain characters, as a percent sign and two digits each,
and are read back from them (`percentDecode_percentEncode`).
-/

namespace ExpiringCache

open Text

/-! ## Separators -/

/-- A character that separates nothing in a URL. -/
def isPlain (c : Char) : Bool := c.isAlphanum || c == '-' || c == '.' || c == '%'

/-- Characters that separate nothing. -/
def Plain (cs : List Char) : Prop := ∀ c ∈ cs, isPlain c = true

theorem Plain.notMem {cs : List Char} (plain : Plain cs) {c : Char}
    (separates : isPlain c = false) : c ∉ cs := by
  intro member
  rw [plain c member] at separates
  cases separates

/-- Characters none of which is plain have none in common with plain ones. -/
theorem isPlain_of_mem {cs : List Char} (separate : cs.all (fun c => !isPlain c) = true) {c : Char}
    (member : c ∈ cs) : isPlain c = false := by
  simpa using List.all_eq_true.1 separate c member

theorem graphic_of_plain {c : Char} (plain : isPlain c = true) :
    0x20 < c.toNat ∧ c.toNat < 0x80 := by
  simp only [isPlain, Char.isAlphanum, Char.isAlpha, Char.isUpper, Char.isLower, Char.isDigit,
    Bool.or_eq_true, Bool.and_eq_true, decide_eq_true_eq, beq_iff_eq, ge_iff_le,
    UInt32.le_iff_toNat_le] at plain
  rcases plain with ((((upper | lower) | digit) | rfl) | rfl) | rfl
  · exact ⟨Nat.lt_of_lt_of_le (by decide) upper.1, Nat.lt_of_le_of_lt upper.2 (by decide)⟩
  · exact ⟨Nat.lt_of_lt_of_le (by decide) lower.1, Nat.lt_of_le_of_lt lower.2 (by decide)⟩
  · exact ⟨Nat.lt_of_lt_of_le (by decide) digit.1, Nat.lt_of_le_of_lt digit.2 (by decide)⟩
  all_goals decide

theorem isPlain_of_isDigit {c : Char} (digit : c.isDigit = true) : isPlain c = true := by
  simp [isPlain, Char.isAlphanum, digit]

/-! ## Percent encoding -/

/-- Octets as a percent sign and two hexadecimal digits each. -/
def percentEncode (bytes : Bytes) : List Char :=
  bytes.flatMap fun b => ['%', (b.toNat / 16).digitChar, (b.toNat % 16).digitChar]

theorem percentDecode_percentEncode (bytes : Bytes) :
    percentDecode (percentEncode bytes) = bytes := by
  induction bytes with
  | nil => rfl
  | cons b rest ih =>
      have octet := b.toNat_lt
      have high := hexDigit?_digitChar (k := b.toNat / 16) (by omega)
      have low := hexDigit?_digitChar (k := b.toNat % 16) (by omega)
      have whole : b.toNat / 16 * 16 + b.toNat % 16 = b.toNat := by omega
      simp only [percentEncode, List.flatMap_cons, List.cons_append, List.nil_append] at ih ⊢
      rw [percentDecode, high, low]
      simp only [whole, UInt8.ofNat_toNat, ih]

theorem isPlain_digitChar {k : Nat} (small : k < 16) : isPlain k.digitChar = true := by
  decide +revert

theorem plain_percentEncode (bytes : Bytes) : Plain (percentEncode bytes) := by
  intro c member
  obtain ⟨b, -, part⟩ := List.mem_flatMap.1 member
  have octet := b.toNat_lt
  simp only [List.mem_cons, List.not_mem_nil, or_false] at part
  rcases part with rfl | rfl | rfl
  · decide
  · exact isPlain_digitChar (by omega)
  · exact isPlain_digitChar (by omega)

/-- Without a percent sign, every character stands for itself. -/
theorem percentDecode_of_notMem {cs : List Char} (absent : '%' ∉ cs) :
    percentDecode cs = encodeChars cs := by
  induction cs with
  | nil => rfl
  | cons c rest ih =>
      simp only [List.mem_cons, not_or] at absent
      unfold percentDecode
      split
      next split => exact absurd (List.cons.inj split).1.symm absent.1
      next split =>
        obtain ⟨rfl, rfl⟩ := List.cons.inj split
        rw [ih absent.2]
        rfl
      next split => cases split

/-! ## Splitting -/

theorem dropWhile_of_free {p : Char → Bool} {cs : List Char} (free : ∀ c ∈ cs, p c = false) :
    cs.dropWhile p = cs := by
  cases cs with
  | nil => rfl
  | cons c rest => simp [free c List.mem_cons_self]

theorem free_of_notMem {c : Char} {cs : List Char} (absent : c ∉ cs) :
    ∀ d ∈ cs, (d == c) = false :=
  fun _ member => beq_eq_false_iff_ne.2 fun same => absent (same ▸ member)

theorem splitBefore_append {stop : Char → Bool} {before : List Char}
    (free : ∀ c ∈ before, stop c = false) {c : Char} (here : stop c = true) (after : List Char) :
    splitBefore stop (before ++ c :: after) = (before, c :: after) := by
  have go : ∀ d ∈ before, (!stop d) = true := fun d member => by rw [free d member]; rfl
  rw [splitBefore, List.takeWhile_append_of_pos go, List.dropWhile_append_of_pos go]
  simp [here]

theorem splitBefore_of_free {stop : Char → Bool} {cs : List Char}
    (free : ∀ c ∈ cs, stop c = false) : splitBefore stop cs = (cs, []) := by
  rw [splitBefore, List.takeWhile_eq_self_iff.2 (by simpa using free),
    List.dropWhile_eq_nil_iff.2 (by simpa using free)]

theorem splitAround_append {c : Char} {before : List Char} (absent : c ∉ before)
    (after : List Char) : splitAround c (before ++ c :: after) = (before, some after) := by
  rw [splitAround, splitBefore_append (free_of_notMem absent) (beq_self_eq_true c)]

theorem splitAround_of_notMem {c : Char} {cs : List Char} (absent : c ∉ cs) :
    splitAround c cs = (cs, none) := by
  rw [splitAround, splitBefore_of_free (free_of_notMem absent)]

theorem splitOn_of_notMem {c : Char} {cs : List Char} (absent : c ∉ cs) : cs.splitOn c = [cs] :=
  List.splitOnP_eq_singleton (free_of_notMem absent)

theorem splitAroundLast_append {c : Char} {after : List Char} (absent : c ∉ after)
    (before : List Char) : splitAroundLast c (before ++ c :: after) = (some before, after) := by
  have turned : (before ++ c :: after).reverse = after.reverse ++ c :: before.reverse := by simp
  rw [splitAroundLast, turned, splitAround_append (by simpa using absent)]
  simp

theorem splitHost_append {host : List Char} (plain : Plain host) (port : List Char) :
    splitHost false (host ++ ':' :: port) = (host, some port) := by
  induction host with
  | nil => rfl
  | cons c rest ih =>
      have other {d : Char} (separates : isPlain d = false) : c ≠ d := by
        rintro rfl
        exact plain.notMem separates List.mem_cons_self
      rw [List.cons_append, splitHost, if_neg (fun colon => other (by decide) colon.1),
        if_neg (other (by decide)), if_neg (other (by decide))]
      simp only [ih fun d member => plain d (.tail _ member)]

/-! ## Parts -/

theorem Authority.split_append {info host port : List Char} (hosted : Plain host)
    (ported : Plain port) :
    split (info ++ '@' :: (host ++ ':' :: port)) = (⟨some info, host, some port⟩, []) := by
  have absent : '@' ∉ host ++ ':' :: port := by
    simp [hosted.notMem (c := '@') (by decide), ported.notMem (c := '@') (by decide)]
  have free := free_of_notMem (ported.notMem (c := '\\') (by decide))
  simp only [split, splitAroundLast_append absent, splitHost_append hosted, Option.map_some,
    splitBefore_of_free free]

theorem urlChars_of_graphic {text : String} (graphic : ∀ c ∈ text.toList, 0x20 < c.toNat) :
    urlChars text = text.toList := by
  have keep {cs : List Char} (graphic : ∀ c ∈ cs, 0x20 < c.toNat) :
      cs.dropWhile (fun c => decide (c.toNat ≤ 0x20)) = cs :=
    dropWhile_of_free fun c member => decide_eq_false (Nat.not_le.2 (graphic c member))
  simp only [urlChars]
  rw [keep graphic, keep (by simpa using graphic), List.reverse_reverse, List.filter_eq_self]
  intro c member
  have visible := graphic c member
  have other {d : Char} (control : d.toNat ≤ 0x20) : c ≠ d := by
    rintro rfl
    omega
  simp [other (d := '\t') (by decide), other (d := '\n') (by decide),
    other (d := '\r') (by decide)]

namespace Url

/-- Where no query and no fragment follows, a URL is an authority and a path. -/
theorem parse?_append {text : String} {place path : List Char}
    (spelt : text.toList = "redis://".toList ++ place ++ '/' :: path)
    (graphic : ∀ c ∈ text.toList, 0x20 < c.toNat) (unasked : '?' ∉ text.toList)
    (unmarked : '#' ∉ text.toList) (bounded : '/' ∉ place) :
    parse? text = some ⟨"redis", some (Authority.split place).1,
      (Authority.split place).2 ++ '/' :: path, []⟩ := by
  have scheme : ':' ∉ "redis".toList := by decide
  have parts : text.toList = "redis".toList ++ ':' :: ('/' :: '/' :: (place ++ '/' :: path)) := by
    simpa using spelt
  have absent {c : Char} (absent : c ∉ text.toList) : c ∉ '/' :: '/' :: (place ++ '/' :: path) :=
    fun member => absent (parts ▸ List.mem_append_right _ (.tail _ member))
  rw [parse?, urlChars_of_graphic graphic, parts]
  simp only [splitAround_append scheme, Option.bind_eq_bind, Option.bind_some,
    splitBefore_of_free (free_of_notMem (absent unmarked)), splitAround_of_notMem (absent unasked),
    splitBefore_append (free_of_notMem bounded) (beq_self_eq_true '/')]
  rfl

/-- A text that spells a URL with nothing but plain characters between its separators. -/
structure Spells (text : String) (name secret host port path : List Char) : Prop where
  spelt : text.toList = "redis://".toList ++
    (name ++ ':' :: secret ++ '@' :: (host ++ ':' :: port)) ++ '/' :: path
  name : Plain name
  secret : Plain secret
  host : Plain host
  port : Plain port
  path : Plain path

namespace Spells

variable {text : String} {name secret host port path : List Char} {c : Char}

theorem plain_or_separator (spells : Spells text name secret host port path)
    (member : c ∈ text.toList) : isPlain c = true ∨ c ∈ [':', '/', '@'] := by
  have scheme : ∀ c ∈ "redis://".toList, isPlain c = true ∨ c ∈ [':', '/', '@'] := by
    simp [isPlain]
  simp only [spells.spelt, List.mem_append, List.mem_cons] at member
  rcases member with (start | (name | colon | secret) | sign | host | colon | port) | slash | path
  · exact scheme c start
  · exact .inl (spells.name c name)
  · simp [colon]
  · exact .inl (spells.secret c secret)
  · simp [sign]
  · exact .inl (spells.host c host)
  · simp [colon]
  · exact .inl (spells.port c port)
  · simp [slash]
  · exact .inl (spells.path c path)

theorem notMem (spells : Spells text name secret host port path)
    (other : ¬ (isPlain c = true ∨ c ∈ [':', '/', '@'])) : c ∉ text.toList :=
  fun member => other (spells.plain_or_separator member)

theorem graphic (spells : Spells text name secret host port path) (member : c ∈ text.toList) :
    0x20 < c.toNat ∧ c.toNat < 0x80 := by
  have separators : ∀ c ∈ [':', '/', '@'], 0x20 < c.toNat ∧ c.toNat < 0x80 := by simp
  exact (spells.plain_or_separator member).elim graphic_of_plain (separators c)

/-- What is spelt is read in its parts. -/
theorem parse?_eq (spells : Spells text name secret host port path) :
    parse? text = some ⟨"redis", some ⟨some (name ++ ':' :: secret), host, some port⟩,
      '/' :: path, []⟩ := by
  have bounded : '/' ∉ name ++ ':' :: secret ++ '@' :: (host ++ ':' :: port) := by
    simp [spells.name.notMem (c := '/') (by decide), spells.secret.notMem (c := '/') (by decide),
      spells.host.notMem (c := '/') (by decide), spells.port.notMem (c := '/') (by decide)]
  rw [parse?_append spells.spelt (fun c member => (spells.graphic member).1)
    (spells.notMem (by decide)) (spells.notMem (by decide)) bounded,
    Authority.split_append spells.host spells.port]
  rfl

end Spells

end Url

/-! ## Paths and hosts -/

/-- A path of one segment that has no dots stays as it is. -/
theorem resolvePath_of_segment {cs : List Char} (slash : '/' ∉ cs) (percent : '%' ∉ cs)
    (dot : '.' ∉ cs) : resolvePath ('/' :: cs) = '/' :: cs := by
  have parts : ('/' :: cs).splitOn '/' = [[], cs] := by
    have split := List.splitOnP_append_cons (p := (· == '/')) [] cs (beq_self_eq_true '/')
    exact split.trans (congrArg _ (splitOn_of_notMem slash))
  have read : decodeLossy (percentDecode cs) = String.ofList cs := by
    have read := decodeLossy_encode (String.ofList cs)
    rwa [encode, String.toList_ofList, ← percentDecode_of_notMem percent] at read
  have empty : decodeLossy (percentDecode []) = "" := rfl
  have other {text : String} (dots : '.' ∈ text.toList) : String.ofList cs ≠ text := by
    rintro rfl
    exact dot (by simpa using dots)
  have here : String.ofList cs ≠ "." := other (by decide)
  have up : String.ofList cs ≠ ".." := other (by decide)
  simp [resolvePath, parts, read, empty, here, up, List.intercalate]

theorem trimSlashes_of_segment {cs : List Char} (slash : '/' ∉ cs) :
    trimSlashes ('/' :: cs) = cs := by
  have turned : '/' ∉ cs.reverse := by simpa using slash
  rw [trimSlashes, List.dropWhile_cons, if_pos (by rfl), dropWhile_of_free (free_of_notMem slash),
    dropWhile_of_free (free_of_notMem turned), List.reverse_reverse]

theorem host?_of_plain {host : String} (plain : Plain host.toList) :
    host? host.toList = some host := by
  have free : host.toList.any isForbiddenInHost = false := by
    rw [List.any_eq_false]
    intro c member forbidden
    have separates := isPlain_of_mem (by decide) (List.contains_iff_mem.1 forbidden)
    exact plain.notMem separates member
  unfold host?
  split
  next bracket =>
    have absent := plain.notMem (c := '[') (by decide)
    simp [bracket] at absent
  next => simp [free]

theorem port?_toDigits (standard : Nat) {port : Nat} (small : port < 65536) :
    port? standard (some (Nat.toDigits 10 port)) = some port := by
  have nonempty : Nat.toDigits 10 port ≠ [] := Nat.toDigits_ne_nil
  unfold port?
  split
  next absent => cases absent
  next nothing => exact absurd (Option.some.inj nothing) nonempty
  next cs _ written =>
    obtain rfl := Option.some.inj written
    simp [digits?_toDigits, small]

end ExpiringCache
