import Everdict.Contracts.OutboundTarget

/-!
# Which hosts the outbound guard judges rightly

A host in a URL or in the answer of a lookup is an IPv4 address, a spelling of an IPv6 address, or
a name.  Which of them lie inside is said of the address and of the labels.  The guard reads texts,
and the spellings and names that it reads rightly are told by conditions on the text.
-/

namespace Everdict.Contracts

open Address

/-! ## Hosts -/

inductive Host
  | v4 (address : V4)
  | v6 (spelling : V6)
  | name (host : HostName)

namespace Host

def text : Host → String
  | v4 address => String.ofList address.text
  | v6 spelling => String.ofList spelling.text
  | name host => String.ofList host.text

/-- The host lies inside: a reserved address, localhost, a name under `.local` or `.internal`. -/
def Private : Host → Prop
  | v4 address => Reserved4 address.a address.b
  | v6 spelling => Reserved6 spelling.groups
  | name host =>
      host.labels.map lower = ["localhost".toList] ∨
        2 ≤ host.labels.length ∧
          ∃ last ∈ host.labels.getLast?,
            lower last = "local".toList ∨ lower last = "internal".toList

/-- The test tells a private host, so no lookup that answers one is accepted, and a URL that
names any other host in an allowed scheme is not refused. -/
structure Judged (host : Host) : Prop where
  judged : isPrivateAddress host.text = true ↔ host.Private
  answers : host.Private → ∀ url lane addresses, host.text ∈ addresses →
    ∃ refusal, assertPublicOutboundTarget url lane addresses = .error refusal
  names : ¬ host.Private → ∀ parse raw lane policy url, parse raw = some url →
    url.hostname = host.text →
    url.protocol = "https:" ∨ policy.allowHttp = true ∧ url.protocol = "http:" →
    refuseUnsafeOutboundUrl parse raw lane policy = .ok url

/-! ## The spellings and names that are read rightly -/

/-- The labels start like a reserved IPv4 address, and do not end there. -/
def StartsReserved (labels : List (List Char)) : Prop :=
  (∃ a rest, labels = decimal a :: rest ∧ rest ≠ [] ∧ (a = 10 ∨ a = 127 ∨ a = 0)) ∨
    ∃ a b rest, labels = decimal a :: decimal b :: rest ∧ rest ≠ [] ∧ Reserved4 a b

/-- A first group from `fc` or `fd` on has all its digits, the address is not one of fe80::/10
outside fe80::/16, and the zeros of `::`, of `::1` and of a mapped address are left out. -/
structure PlainSpelling (x : V6) : Prop where
  unique : ∀ g ∈ x.front.head?,
    g.startsWith ['f', 'c'] = true ∨ g.startsWith ['f', 'd'] = true → g.digits.length = 4
  link : ∀ first ∈ x.groups.head?, first ≤ 0xfe80 ∨ 0xfebf < first
  unspecified : x.groups = [0, 0, 0, 0, 0, 0, 0, 0] → x.bare = "::".toList
  loopback : x.groups = [0, 0, 0, 0, 0, 0, 0, 1] → x.bare = "::1".toList
  mapped : ∀ high low, x.groups = [0, 0, 0, 0, 0, 0xffff, high, low] →
    Reserved4 (high / 256) (high % 256) →
    x.front = [] ∧ x.back.length + (if x.quad.isSome then 2 else 0) = 3

/-- A public name must not start like an address. -/
def Plain : Host → Prop
  | v4 _ => True
  | v6 spelling => PlainSpelling spelling
  | name host =>
      (name host).Private ∨
        (∀ first ∈ host.labels.head?, ∀ stem ∈ [['f', 'c'], ['f', 'd'], ['f', 'e', '8', '0']],
          stem.isPrefixOf (lower first) = false) ∧
        ¬ StartsReserved (host.labels.map lower)

end Host

/-! ## The tests in turn -/

variable {cs : List Char}

theorem unbracket_of_plain (left : '[' ∉ cs) (right : ']' ∉ cs) :
    unbracket cs = cs := by
  have first : cs.head? ≠ some '[' := fun eq => left (List.mem_of_mem_head? eq)
  have last : cs.getLast? ≠ some ']' := fun eq => right (List.mem_of_getLast? eq)
  rw [unbracket, if_neg first, if_neg last]

theorem unbracket_bracketed (cs : List Char) : unbracket ('[' :: cs ++ [']']) = cs := by
  rw [unbracket, List.cons_append, List.head?_cons, if_pos rfl, List.tail_cons,
    List.getLast?_concat, if_pos rfl, List.dropLast_concat]

theorem PRIVATE_HOST_of_not_mem (no : 'l' ∉ cs) : PRIVATE_HOST cs = false := by
  have under : ∀ suffix, 'l' ∈ suffix → endsUnder suffix cs = false := by
    intro suffix isIn
    rw [endsUnder, Bool.and_eq_false_iff]
    refine Or.inl (Bool.eq_false_iff.mpr fun ends => no ?_)
    exact (List.isSuffixOf_iff_suffix.mp ends).subset isIn
  have notLocal : cs ≠ "localhost".toList := fun eq => no (eq ▸ by decide)
  rw [PRIVATE_HOST, decide_eq_false notLocal, under _ (by decide), under _ (by decide)]
  rfl

theorem isDigit_between {c low high : Char} (digit : low.isDigit = true)
    (digit' : high.isDigit = true) (between : (low ≤ c && c ≤ high) = true) : c.isDigit = true := by
  rw [Char.isDigit_iff_toNat] at *
  rw [Bool.and_eq_true, decide_eq_true_eq, decide_eq_true_eq] at between
  exact ⟨digit.1.trans (Char.le_def.mp between.1), (Char.le_def.mp between.2).trans digit'.2⟩

theorem sixteenToThirtyOne_iff :
    sixteenToThirtyOne cs = true ↔ ∃ b, cs = decimal b ∧ b / 16 = 1 := by
  constructor
  · intro reads
    have two : ∃ i < 10, ∃ j < 10, cs = [i.digitChar, j.digitChar] := by
      revert reads
      fun_cases sixteenToThirtyOne cs with
      | case1 d =>
          intro reads
          obtain ⟨j, lt, rfl⟩ := exists_digit (isDigit_between rfl rfl reads)
          exact ⟨1, by decide, j, lt, rfl⟩
      | case2 d =>
          intro reads
          obtain ⟨j, lt, rfl⟩ := exists_digit reads
          exact ⟨2, by decide, j, lt, rfl⟩
      | case3 d =>
          intro reads
          rw [Bool.or_eq_true, decide_eq_true_eq, decide_eq_true_eq] at reads
          rcases reads with rfl | rfl
          · exact ⟨3, by decide, 0, by decide, rfl⟩
          · exact ⟨3, by decide, 1, by decide, rfl⟩
      | case4 => exact fun reads => nomatch reads
    obtain ⟨i, lt, j, lt', rfl⟩ := two
    have all : ∀ i < 10, ∀ j < 10, sixteenToThirtyOne [i.digitChar, j.digitChar] = true →
        ∃ b, b < 32 ∧ [i.digitChar, j.digitChar] = decimal b ∧ b / 16 = 1 := by
      decide +kernel
    obtain ⟨b, _, found⟩ := all i lt j lt' reads
    exact ⟨b, found⟩
  · rintro ⟨b, rfl, block⟩
    have all : ∀ b < 32, b / 16 = 1 → sixteenToThirtyOne (decimal b) = true := by decide +kernel
    exact all b (by omega) block

theorem sixtyFourToOneTwentySeven_iff :
    sixtyFourToOneTwentySeven cs = true ↔ ∃ b, cs = decimal b ∧ b / 64 = 1 := by
  constructor
  · intro reads
    have digits : (∃ i < 10, ∃ j < 10, cs = [i.digitChar, j.digitChar]) ∨
        ∃ i < 3, ∃ j < 10, cs = ['1', i.digitChar, j.digitChar] := by
      revert reads
      fun_cases sixtyFourToOneTwentySeven cs with
      | case1 d =>
          intro reads
          obtain ⟨j, lt, rfl⟩ := exists_digit (isDigit_between rfl rfl reads)
          exact Or.inl ⟨6, by decide, j, lt, rfl⟩
      | case2 d d' =>
          intro reads
          rw [Bool.and_eq_true] at reads
          obtain ⟨i, lt, rfl⟩ := exists_digit (isDigit_between rfl rfl reads.1)
          obtain ⟨j, lt', rfl⟩ := exists_digit reads.2
          exact Or.inl ⟨i, lt, j, lt', rfl⟩
      | case3 d =>
          intro reads
          obtain ⟨j, lt, rfl⟩ := exists_digit (isDigit_between rfl rfl reads)
          exact Or.inr ⟨2, by decide, j, lt, rfl⟩
      | case4 d d' =>
          intro reads
          rw [Bool.and_eq_true, Bool.or_eq_true, decide_eq_true_eq, decide_eq_true_eq] at reads
          obtain ⟨j, lt, rfl⟩ := exists_digit reads.2
          rcases reads.1 with rfl | rfl
          · exact Or.inr ⟨0, by decide, j, lt, rfl⟩
          · exact Or.inr ⟨1, by decide, j, lt, rfl⟩
      | case5 => exact fun reads => nomatch reads
    have two : ∀ i < 10, ∀ j < 10, sixtyFourToOneTwentySeven [i.digitChar, j.digitChar] = true →
        ∃ b, b < 128 ∧ [i.digitChar, j.digitChar] = decimal b ∧ b / 64 = 1 := by
      decide +kernel
    have three : ∀ i < 3, ∀ j < 10,
        sixtyFourToOneTwentySeven ['1', i.digitChar, j.digitChar] = true →
          ∃ b, b < 128 ∧ ['1', i.digitChar, j.digitChar] = decimal b ∧ b / 64 = 1 := by
      decide +kernel
    rcases digits with ⟨i, lt, j, lt', rfl⟩ | ⟨i, lt, j, lt', rfl⟩
    · obtain ⟨b, _, found⟩ := two i lt j lt' reads
      exact ⟨b, found⟩
    · obtain ⟨b, _, found⟩ := three i lt j lt' reads
      exact ⟨b, found⟩
  · rintro ⟨b, rfl, block⟩
    have all : ∀ b < 128, b / 64 = 1 → sixtyFourToOneTwentySeven (decimal b) = true := by
      decide +kernel
    exact all b (by omega) block

/-- The four parts of an address, or the labels of a name, are what the patterns are asked of. -/
theorem PRIVATE_IPV4_iff :
    PRIVATE_IPV4 cs = true ↔ Host.StartsReserved (cs.splitOn '.') := by
  have whole : ∀ {first}, ((first = "10".toList ∨ first = "127".toList) ∨ first = "0".toList) ↔
      ∃ a, first = decimal a ∧ (a = 10 ∨ a = 127 ∨ a = 0) := by
    intro first
    have ten : "10".toList = decimal 10 := by decide
    have loop : "127".toList = decimal 127 := by decide
    have zero : "0".toList = decimal 0 := by decide
    rw [ten, loop, zero, or_assoc]
    constructor
    · rintro (rfl | rfl | rfl)
      · exact ⟨10, rfl, Or.inl rfl⟩
      · exact ⟨127, rfl, Or.inr (Or.inl rfl)⟩
      · exact ⟨0, rfl, Or.inr (Or.inr rfl)⟩
    · rintro ⟨a, rfl, rfl | rfl | rfl⟩
      · exact Or.inl rfl
      · exact Or.inr (Or.inl rfl)
      · exact Or.inr (Or.inr rfl)
  have words : "169".toList = decimal 169 ∧ "254".toList = decimal 254 ∧
      "192".toList = decimal 192 ∧ "168".toList = decimal 168 ∧ "172".toList = decimal 172 ∧
      "100".toList = decimal 100 := by decide
  rw [PRIVATE_IPV4, Host.StartsReserved]
  split
  next first last split =>
      simp only [Bool.or_eq_true, decide_eq_true_eq]
      rw [whole, split]
      constructor
      · rintro ⟨a, rfl, octet⟩
        exact Or.inl ⟨a, [last], rfl, List.cons_ne_nil _ _, octet⟩
      · rintro (⟨a, rest, eq, _, octet⟩ | ⟨a, b, rest, eq, some', _⟩)
        · exact ⟨a, (List.cons.inj eq).1, octet⟩
        · exact absurd (List.cons.inj (List.cons.inj eq).2).2.symm some'
  next first second third rest split =>
      simp only [Bool.or_eq_true, Bool.and_eq_true, decide_eq_true_eq, sixteenToThirtyOne_iff,
        sixtyFourToOneTwentySeven_iff]
      rw [whole, split, words.1, words.2.1, words.2.2.1, words.2.2.2.1, words.2.2.2.2.1,
        words.2.2.2.2.2]
      constructor
      · rintro ((((⟨a, rfl, octet⟩ | ⟨rfl, rfl⟩) | ⟨rfl, rfl⟩) | ⟨rfl, b, rfl, block⟩) |
          ⟨rfl, b, rfl, block⟩)
        · exact Or.inl ⟨a, _, rfl, List.cons_ne_nil _ _, octet⟩
        · exact Or.inr ⟨169, 254, _, rfl, List.cons_ne_nil _ _, by simp [Reserved4]⟩
        · exact Or.inr ⟨192, 168, _, rfl, List.cons_ne_nil _ _, by simp [Reserved4]⟩
        · exact Or.inr ⟨172, b, _, rfl, List.cons_ne_nil _ _, by simp [Reserved4, block]⟩
        · exact Or.inr ⟨100, b, _, rfl, List.cons_ne_nil _ _, by simp [Reserved4, block]⟩
      · rintro (⟨a, _, eq, _, octet⟩ | ⟨a, b, _, eq, _, reserved⟩)
        · exact Or.inl (Or.inl (Or.inl (Or.inl ⟨a, (List.cons.inj eq).1, octet⟩)))
        · obtain ⟨rfl, tail⟩ := List.cons.inj eq
          obtain ⟨rfl, _⟩ := List.cons.inj tail
          rcases reserved with zero | ten | loop | ⟨rfl, rfl⟩ | ⟨rfl, block⟩ | ⟨rfl, rfl⟩ |
            ⟨rfl, block⟩
          · exact Or.inl (Or.inl (Or.inl (Or.inl ⟨a, rfl, Or.inr (Or.inr zero)⟩)))
          · exact Or.inl (Or.inl (Or.inl (Or.inl ⟨a, rfl, Or.inl ten⟩)))
          · exact Or.inl (Or.inl (Or.inl (Or.inl ⟨a, rfl, Or.inr (Or.inl loop)⟩)))
          · exact Or.inl (Or.inl (Or.inl (Or.inr ⟨rfl, rfl⟩)))
          · exact Or.inl (Or.inr ⟨rfl, b, rfl, block⟩)
          · exact Or.inl (Or.inl (Or.inr ⟨rfl, rfl⟩))
          · exact Or.inr ⟨rfl, b, rfl, block⟩
  next two more =>
      refine iff_of_false (by simp) ?_
      rintro (⟨a, rest, eq, some', _⟩ | ⟨a, b, rest, eq, some', _⟩)
      · obtain ⟨second, rest', rfl⟩ := List.exists_cons_of_ne_nil some'
        cases rest' with
        | nil => exact two _ _ eq
        | cons third rest' => exact more _ _ _ _ eq
      · obtain ⟨third, rest', rfl⟩ := List.exists_cons_of_ne_nil some'
        exact more _ _ _ _ eq

theorem PRIVATE_IPV4_text (v : V4) : PRIVATE_IPV4 v.text = true ↔ Reserved4 v.a v.b := by
  rw [PRIVATE_IPV4_iff, v.splitOn_text]
  constructor
  · rintro (⟨a, rest, eq, _, octet⟩ | ⟨a, b, rest, eq, _, reserved⟩)
    · rw [decimal_inj.mp (List.cons.inj eq).1]
      rcases octet with rfl | rfl | rfl <;> simp [Reserved4]
    · obtain ⟨first, tail⟩ := List.cons.inj eq
      rwa [decimal_inj.mp first, decimal_inj.mp (List.cons.inj tail).1]
  · exact fun reserved => Or.inr ⟨v.a, v.b, _, rfl, List.cons_ne_nil _ _, reserved⟩

theorem mappedIpv4_of_not_mem (no : ':' ∉ cs) : mappedIpv4 cs = none := by
  rw [mappedIpv4, List.splitOn_eq_singleton no]
  cases cs with
  | nil => rfl
  | cons => rfl

theorem isPrivateAddress_iff {cs bare : List Char} (eq : lower (unbracket cs) = bare) :
    isPrivateAddress (String.ofList cs) = true ↔
      PRIVATE_HOST ((mappedIpv4 bare).getD bare) = true ∨
        PRIVATE_IPV4 ((mappedIpv4 bare).getD bare) = true ∨
        (bare = "::1".toList ∨ bare = "::".toList) ∨
        ∃ stem ∈ [['f', 'c'], ['f', 'd'], ['f', 'e', '8', '0']], stem.isPrefixOf bare = true := by
  simp only [isPrivateAddress, String.toList_ofList, eq, Bool.or_eq_true, decide_eq_true_eq,
    List.exists_mem_cons_iff, List.not_mem_nil, false_and, exists_false, or_false, or_assoc]

/-- A text without colons is asked for the patterns and the three stems only. -/
theorem isPrivateAddress_of_not_mem {cs bare : List Char} (eq : lower (unbracket cs) = bare)
    (no : ':' ∉ bare) :
    isPrivateAddress (String.ofList cs) = true ↔
      PRIVATE_HOST bare = true ∨ PRIVATE_IPV4 bare = true ∨
        ∃ stem ∈ [['f', 'c'], ['f', 'd'], ['f', 'e', '8', '0']], stem.isPrefixOf bare = true := by
  have loop : bare ≠ "::1".toList := fun eq => no (eq ▸ by decide)
  have zero : bare ≠ "::".toList := fun eq => no (eq ▸ by decide)
  rw [isPrivateAddress_iff eq, mappedIpv4_of_not_mem no, Option.getD_none]
  simp only [loop, zero, or_false, false_or]

theorem isPrivateAddress_v4 (v : V4) :
    isPrivateAddress (Host.v4 v).text = true ↔ Reserved4 v.a v.b := by
  have no : ∀ mark : Char, mark.isDigit = false → mark ≠ '.' → mark ∉ v.text := by
    intro mark noDigit noDot isIn
    rcases v.mem_text isIn with digit | dot
    · rw [digit] at noDigit
      cases noDigit
    · exact noDot dot
  have bare : lower (unbracket v.text) = v.text := by
    rw [unbracket_of_plain (no '[' (by decide) (by decide)) (no ']' (by decide) (by decide)),
      v.lower_text]
  have stems : ¬ ∃ stem ∈ [['f', 'c'], ['f', 'd'], ['f', 'e', '8', '0']],
      stem.isPrefixOf v.text = true := by
    rintro ⟨stem, isIn, starts⟩
    have all : ∀ stem ∈ [['f', 'c'], ['f', 'd'], ['f', 'e', '8', '0']], 'f' ∈ stem := by decide
    have first := all stem isIn
    exact no 'f' (by decide) (by decide) ((List.isPrefixOf_iff_prefix.mp starts).subset first)
  rw [Host.text, isPrivateAddress_of_not_mem bare (no ':' (by decide) (by decide)),
    PRIVATE_HOST_of_not_mem (no 'l' (by decide) (by decide)), PRIVATE_IPV4_text]
  simp only [stems, Bool.false_eq_true, or_false, false_or]

/-! ## Spellings of IPv6 addresses -/

theorem mem_bare {x : V6} {c : Char} (isIn : c ∈ x.bare) :
    c.toLower ∈ HEX ∨ c = '.' ∨ c = ':' := by
  rw [x.bare_eq] at isIn
  rcases mem_intercalate isIn with mark | ⟨part, isPart, inPart⟩
  · exact Or.inr (Or.inr mark)
  · exact (V6.mem_parts isPart inPart).imp_right Or.inl

theorem unbracket_v6 (x : V6) : unbracket x.text = x.bare := by
  have no : ∀ mark : Char, mark.toLower ∉ HEX → mark ≠ '.' → mark ≠ ':' → mark ∉ x.bare := by
    intro mark noHex noDot noColon isIn
    rcases mem_bare isIn with hex | dot | colon
    · exact noHex hex
    · exact noDot dot
    · exact noColon colon
  rw [V6.text]
  split
  case isTrue => exact unbracket_bracketed _
  case isFalse =>
      exact unbracket_of_plain (no '[' (by decide) (by decide) (by decide))
        (no ']' (by decide) (by decide) (by decide))

theorem isDotted_text (v : V4) : isDotted v.text = true := by
  have octet : ∀ part ∈ v.parts,
      1 ≤ part.length ∧ part.length ≤ 3 ∧ part.all Char.isDigit = true := by
    intro part isIn
    have decimals : ∃ n < 256, part = decimal n := by
      have bound := v.bound
      simp only [V4.parts, List.mem_cons, List.not_mem_nil, or_false] at isIn
      rcases isIn with eq | eq | eq | eq
      · exact ⟨v.a, bound.1, eq⟩
      · exact ⟨v.b, bound.2.1, eq⟩
      · exact ⟨v.c, bound.2.2.1, eq⟩
      · exact ⟨v.d, bound.2.2.2, eq⟩
    obtain ⟨n, bound, rfl⟩ := decimals
    obtain ⟨short, some'⟩ := length_decimal bound
    exact ⟨List.length_pos_iff.mpr some', short,
      List.all_eq_true.mpr fun c isIn => isDigit_of_mem_decimal isIn⟩
  rw [isDotted, v.splitOn_text, Bool.and_eq_true, List.all_eq_true]
  refine ⟨rfl, fun part isIn => ?_⟩
  obtain ⟨atLeast, atMost, digits⟩ := octet part isIn
  simp only [atLeast, atMost, digits, decide_true, Bool.and_self]

theorem not_isDotted_group (g : Group) : isDotted (lower g.digits) = false := by
  have no : '.' ∉ lower g.digits := by
    intro isIn
    obtain ⟨c, inDigits, eq⟩ := List.mem_map.mp isIn
    have hex := g.hex c inDigits
    rw [eq] at hex
    exact absurd hex (by decide)
  rw [isDotted, List.splitOn_eq_singleton no]
  rfl

theorem isHexGroup_group (g : Group) : isHexGroup (lower g.digits) = true := by
  have digits : ∀ c ∈ lower g.digits, c ∈ HEX := by
    intro c isIn
    obtain ⟨c', inDigits, rfl⟩ := List.mem_map.mp isIn
    exact g.hex c' inDigits
  rw [isHexGroup, Bool.and_eq_true, Bool.and_eq_true, decide_eq_true_eq, decide_eq_true_eq,
    List.all_eq_true, lower, List.length_map]
  exact ⟨⟨List.length_pos_iff.mpr g.some', g.short⟩, fun c isIn => decide_eq_true (digits c isIn)⟩

theorem not_isHexGroup_text (v : V4) : isHexGroup v.text = false := by
  have dot : '.' ∈ v.text := by simp [V4.text, V4.parts]
  rw [isHexGroup, Bool.and_eq_false_iff]
  refine Or.inr (Bool.eq_false_iff.mpr fun all => ?_)
  have hex := of_decide_eq_true (List.all_eq_true.mp all '.' dot)
  exact absurd hex (by decide)

theorem text_of_groups {v w : V4} (high : 256 * v.a + v.b = 256 * w.a + w.b)
    (low : 256 * v.c + v.d = 256 * w.c + w.d) : v.text = w.text := by
  have bound := v.bound
  have bound' := w.bound
  have parts : v.parts = w.parts := by
    rw [V4.parts, V4.parts, show v.a = w.a by omega, show v.b = w.b by omega,
      show v.c = w.c by omega, show v.d = w.d by omega]
  rw [V4.text, V4.text, parts]

/-- The address in front of which `::ffff:` stands is the carried one. -/
theorem mapped_of_mappedIpv4 {x : V6} (eq : mappedIpv4 (lower x.bare) = some cs) :
    ∃ v, x.Mapped v ∧ cs = v.text := by
  rw [mappedIpv4, x.splitOn_lower_bare] at eq
  split at eq
  next tag dotted parts =>
      obtain ⟨front, ⟨_, other⟩ | behind⟩ := V6.behind_of_parts parts
      · cases other
      split at eq
      case isFalse => cases eq
      case isTrue reads =>
      rw [Bool.and_eq_true, decide_eq_true_eq] at reads
      rw [V6.backParts, List.map_append] at behind
      cases quad : x.quad with
      | none =>
          rw [quad, Option.toList_none, List.map_nil, List.map_nil, List.append_nil,
            List.map_map] at behind
          obtain ⟨g, rest, _, _, last⟩ := List.map_eq_cons_iff.mp behind
          obtain ⟨h, rest', _, last', _⟩ := List.map_eq_cons_iff.mp last
          rw [← last'] at reads
          exact absurd reads.2 (Bool.eq_false_iff.mp (not_isDotted_group h))
      | some v =>
          rw [quad] at behind
          change _ = [tag] ++ [dotted] at behind
          obtain ⟨groups, last⟩ := List.append_inj' behind rfl
          rw [List.map_map] at groups
          obtain ⟨g, rest, back, first, noRest⟩ := List.map_eq_cons_iff.mp groups
          rw [List.map_eq_nil_iff] at noRest
          have value : g.value = 0xffff := Group.value_eq_ffff_iff.mpr (first.trans reads.1)
          refine ⟨v, ⟨front, ?_⟩, ?_⟩
          · rw [back, noRest, V6.quadGroups, quad, List.map_singleton, value]
            rfl
          · rw [← Option.some.inj eq, ← v.lower_text]
            exact (List.cons.inj last).1.symm
  next tag highGroup lowGroup parts =>
      obtain ⟨front, ⟨_, other⟩ | behind⟩ := V6.behind_of_parts parts
      · cases other
      split at eq
      case isFalse => cases eq
      case isTrue reads =>
      rw [Bool.and_eq_true, Bool.and_eq_true, decide_eq_true_eq] at reads
      rw [V6.backParts, List.map_append] at behind
      cases quad : x.quad with
      | none =>
          rw [quad, Option.toList_none, List.map_nil, List.map_nil, List.append_nil,
            List.map_map] at behind
          obtain ⟨g, _, back, first, two⟩ := List.map_eq_cons_iff.mp behind
          obtain ⟨high, _, rfl, rfl, one⟩ := List.map_eq_cons_iff.mp two
          obtain ⟨low, _, rfl, rfl, noRest⟩ := List.map_eq_cons_iff.mp one
          rw [List.map_eq_nil_iff] at noRest
          have value : g.value = 0xffff := Group.value_eq_ffff_iff.mpr (first.trans reads.1.1)
          have high' := high.value_lt
          have low' := low.value_lt
          refine ⟨⟨high.value / 256, high.value % 256, low.value / 256, low.value % 256, by omega⟩,
            ⟨front, ?_⟩, ?_⟩
          · rw [back, noRest, V6.quadGroups, quad, Nat.div_add_mod, Nat.div_add_mod, ← value]
            rfl
          · rw [← Option.some.inj eq]
            simp only [Function.comp_apply, hexValue_lower]
            rfl
      | some v =>
          rw [quad] at behind
          change _ = [tag, highGroup] ++ [lowGroup] at behind
          obtain ⟨_, last⟩ := List.append_inj' behind rfl
          rw [← (List.cons.inj last).1, v.lower_text, not_isHexGroup_text] at reads
          cases reads.2
  next => cases eq

theorem mappedIpv4_of_mapped {x : V6} {v : V4} (mapped : x.Mapped v) :
    mappedIpv4 (lower x.bare) = some v.text := by
  obtain ⟨front, behind⟩ := mapped
  have bound := v.bound
  cases quad : x.quad with
  | none =>
      rw [V6.quadGroups, quad, Option.toList_none, List.flatMap_nil, List.append_nil] at behind
      obtain ⟨g, _, back, value, two⟩ := List.map_eq_cons_iff.mp behind
      obtain ⟨high, _, rfl, highValue, one⟩ := List.map_eq_cons_iff.mp two
      obtain ⟨low, _, rfl, lowValue, noRest⟩ := List.map_eq_cons_iff.mp one
      rw [List.map_eq_nil_iff] at noRest
      have parts : x.parts.map lower
          = [[], [], lower g.digits, lower high.digits, lower low.digits] := by
        rw [x.parts_of_no_front front, V6.backParts, back, quad, noRest]
        rfl
      have octets : high.value / 256 = v.a ∧ high.value % 256 = v.b ∧ low.value / 256 = v.c ∧
          low.value % 256 = v.d := by omega
      rw [mappedIpv4, x.splitOn_lower_bare, parts]
      simp only [Group.value_eq_ffff_iff.mp value, isHexGroup_group, decide_true, Bool.and_self,
        if_pos, hexValue_lower]
      rw [← Group.value, ← Group.value, octets.1, octets.2.1, octets.2.2.1, octets.2.2.2]
      rfl
  | some w =>
      rw [V6.quadGroups, quad] at behind
      change _ = [0xffff] ++ [256 * v.a + v.b, 256 * v.c + v.d] at behind
      obtain ⟨groups, carried⟩ := List.append_inj' behind rfl
      obtain ⟨g, _, back, value, noRest⟩ := List.map_eq_cons_iff.mp groups
      rw [List.map_eq_nil_iff] at noRest
      obtain ⟨high, tail⟩ := List.cons.inj carried
      have low := (List.cons.inj tail).1
      have parts : x.parts.map lower = [[], [], lower g.digits, w.text] := by
        rw [x.parts_of_no_front front, V6.backParts, back, quad, noRest]
        exact congrArg (fun quad => [[], [], lower g.digits, quad]) w.lower_text
      rw [mappedIpv4, x.splitOn_lower_bare, parts]
      simp only [Group.value_eq_ffff_iff.mp value, isDotted_text, decide_true, Bool.and_self,
        if_pos, text_of_groups high low]

/-- A stem is asked of the first group that is written, when one is. -/
theorem isPrefixOf_bare {x : V6} {stem : List Char} (some' : stem ≠ []) (noColon : ':' ∉ stem) :
    stem.isPrefixOf (lower x.bare) = true ↔ ∃ g ∈ x.front.head?, g.startsWith stem = true := by
  rw [x.lower_bare]
  cases front : x.front with
  | nil =>
      rw [x.parts_of_no_front front, List.map_cons, isPrefixOf_intercalate noColon]
      refine iff_of_false (fun starts => some' ?_) (by rintro ⟨_, ⟨⟩, _⟩)
      exact List.prefix_nil.mp (List.isPrefixOf_iff_prefix.mp starts)
  | cons g rest =>
      obtain ⟨parts', parts⟩ := x.parts_of_front front
      rw [parts, List.map_cons, isPrefixOf_intercalate noColon, List.head?_cons]
      constructor
      · exact fun starts => ⟨g, rfl, starts⟩
      · rintro ⟨_, ⟨⟩, starts⟩
        exact starts

theorem Host.StartsReserved.first {labels : List (List Char)} (starts : StartsReserved labels) :
    ∃ a rest, labels = decimal a :: rest ∧ rest ≠ [] := by
  rcases starts with ⟨a, rest, eq, some', _⟩ | ⟨a, b, rest, eq, _, _⟩
  · exact ⟨a, rest, eq, some'⟩
  · exact ⟨a, _, eq, List.cons_ne_nil _ _⟩

theorem not_PRIVATE_IPV4_bare (x : V6) : PRIVATE_IPV4 (lower x.bare) = false := by
  rw [Bool.eq_false_iff]
  intro reads
  have first : ∃ a, (decimal a ++ ['.']).isPrefixOf (lower x.bare) = true := by
    have joined : ['.'].intercalate ((lower x.bare).splitOn '.') = lower x.bare :=
      List.intercalate_splitOn '.'
    obtain ⟨a, rest, parts, some'⟩ := (PRIVATE_IPV4_iff.mp reads).first
    rw [parts, List.intercalate_cons_of_ne_nil some'] at joined
    exact ⟨a, List.isPrefixOf_iff_prefix.mpr ⟨_, joined⟩⟩
  obtain ⟨a, starts⟩ := first
  have noColon : ':' ∉ decimal a ++ ['.'] := by
    rw [List.mem_append, not_or]
    exact ⟨not_mem_decimal (by decide) a, by decide⟩
  obtain ⟨g, _, starts⟩ := (isPrefixOf_bare (by simp) noColon).mp starts
  have dot : '.' ∈ lower g.digits :=
    (List.isPrefixOf_iff_prefix.mp starts).subset (List.mem_append_right _ List.mem_cons_self)
  obtain ⟨c, inDigits, eq⟩ := List.mem_map.mp dot
  have hex := g.hex c inDigits
  rw [eq] at hex
  exact absurd hex (by decide)

/-- The test of a spelling. -/
theorem isPrivateAddress_v6 (x : V6) :
    isPrivateAddress (Host.v6 x).text = true ↔
      x.bare = "::".toList ∨ x.bare = "::1".toList ∨
        (∃ g ∈ x.front.head?, g.startsWith ['f', 'c'] = true ∨ g.startsWith ['f', 'd'] = true ∨
          g.startsWith ['f', 'e', '8', '0'] = true) ∨
        ∃ v, x.Mapped v ∧ Reserved4 v.a v.b := by
  have loop : lower x.bare = "::1".toList ↔ x.bare = "::1".toList := lower_eq_iff (by simp)
  have zero : lower x.bare = "::".toList ↔ x.bare = "::".toList := lower_eq_iff (by simp)
  have stems : (∃ stem ∈ [['f', 'c'], ['f', 'd'], ['f', 'e', '8', '0']],
      stem.isPrefixOf (lower x.bare) = true) ↔ ∃ g ∈ x.front.head?, g.startsWith ['f', 'c'] = true ∨
        g.startsWith ['f', 'd'] = true ∨ g.startsWith ['f', 'e', '8', '0'] = true := by
    simp only [List.exists_mem_cons_iff, List.not_mem_nil, false_and, exists_false, or_false,
      and_or_left, exists_or]
    rw [isPrefixOf_bare (by decide) (by decide), isPrefixOf_bare (by decide) (by decide),
      isPrefixOf_bare (by decide) (by decide)]
  have noL : 'l' ∉ lower x.bare := by
    intro isIn
    obtain ⟨c, inBare, eq⟩ := List.mem_map.mp isIn
    rcases mem_bare inBare with hex | rfl | rfl
    · rw [eq] at hex
      exact absurd hex (by decide)
    · cases eq
    · cases eq
  have patterns : (PRIVATE_HOST ((mappedIpv4 (lower x.bare)).getD (lower x.bare)) = true ∨
      PRIVATE_IPV4 ((mappedIpv4 (lower x.bare)).getD (lower x.bare)) = true) ↔
      ∃ v, x.Mapped v ∧ Reserved4 v.a v.b := by
    cases mapped : mappedIpv4 (lower x.bare) with
    | none =>
        rw [Option.getD_none, PRIVATE_HOST_of_not_mem noL, not_PRIVATE_IPV4_bare]
        refine iff_of_false (by simp) ?_
        rintro ⟨v, carried, _⟩
        rw [mappedIpv4_of_mapped carried] at mapped
        cases mapped
    | some cs =>
        obtain ⟨v, carried, rfl⟩ := mapped_of_mappedIpv4 mapped
        have noL : 'l' ∉ v.text := fun isIn => by
          rcases v.mem_text isIn with digit | dot
          · cases digit
          · cases dot
        rw [Option.getD_some, PRIVATE_HOST_of_not_mem noL, PRIVATE_IPV4_text]
        simp only [Bool.false_eq_true, false_or]
        constructor
        · exact fun reserved => ⟨v, carried, reserved⟩
        · rintro ⟨w, carried', reserved⟩
          have same := mappedIpv4_of_mapped carried'
          rw [mapped, Option.some.injEq] at same
          rwa [← PRIVATE_IPV4_text, same, PRIVATE_IPV4_text]
  have bare : lower (unbracket x.text) = lower x.bare := congrArg lower (unbracket_v6 x)
  rw [Host.text, isPrivateAddress_iff bare, ← or_assoc, patterns, stems, loop, zero]
  constructor
  · rintro (carried | (one | none') | starts)
    · exact Or.inr (Or.inr (Or.inr carried))
    · exact Or.inr (Or.inl one)
    · exact Or.inl none'
    · exact Or.inr (Or.inr (Or.inl starts))
  · rintro (none' | one | starts | carried)
    · exact Or.inr (Or.inl (Or.inr none'))
    · exact Or.inr (Or.inl (Or.inl one))
    · exact Or.inr (Or.inr starts)
    · exact Or.inl carried

/-! ## Names -/

/-- A joined text ends under a word if the word is the last of its parts and not the only one. -/
theorem endsUnder_iff {parts : List (List Char)} {word : List Char}
    (noDots : ∀ part ∈ parts, '.' ∉ part) (some' : parts ≠ []) (noDot : '.' ∉ word)
    (plain : ∀ c ∈ ['.'].intercalate parts, RegExp.isLineEnd c.toNat = false) :
    endsUnder ('.' :: word) (['.'].intercalate parts) = true ↔
      2 ≤ parts.length ∧ parts.getLast? = some word := by
  have anything : ∀ n, ((['.'].intercalate parts).take n).all
      (fun c => !RegExp.isLineEnd c.toNat) = true := by
    intro n
    rw [List.all_eq_true]
    intro c isIn
    rw [plain c (List.mem_of_mem_take isIn)]
    rfl
  rw [endsUnder, anything, Bool.and_true, List.isSuffixOf_iff_suffix]
  constructor
  · rintro ⟨front, joined⟩
    have split := List.splitOn_intercalate '.' noDots some'
    rw [← joined, List.splitOn_append_cons_self, List.splitOn_eq_singleton noDot] at split
    have more := List.length_pos_iff.mpr (List.splitOn_ne_nil '.' front)
    rw [← split, List.length_append, List.getLast?_concat]
    exact ⟨Nat.succ_le_succ more, rfl⟩
  · rintro ⟨two, last⟩
    obtain ⟨init, eq⟩ := List.getLast?_eq_some_iff.mp last
    rw [eq, List.length_append] at two
    have some'' : init ≠ [] := List.length_pos_iff.mp (Nat.le_of_succ_le_succ two)
    refine ⟨['.'].intercalate init, ?_⟩
    rw [eq, intercalate_append some'' (List.cons_ne_nil _ _), List.intercalate_singleton]

theorem not_mem_lower {mark : Char} (noLetter : mark.isAlpha = false) (no : mark ∉ cs) :
    mark ∉ lower cs := by
  intro isIn
  obtain ⟨c, inText, eq⟩ := List.mem_map.mp isIn
  rw [(toLower_eq_iff noLetter).mp eq] at inText
  exact no inText

section

variable (host : HostName)

theorem not_mem_label {mark : Char} (other : mark.isAlphanum = false ∧ mark ≠ '-' ∧ mark ≠ '_')
    {label : List Char} (isIn : label ∈ host.labels) : mark ∉ label := by
  intro inLabel
  rcases (host.each label isIn).2 mark inLabel with letter | dash | line
  · rw [other.1] at letter
    cases letter
  · exact other.2.1 dash
  · exact other.2.2 line

theorem not_mem_name {mark : Char} (other : mark.isAlphanum = false ∧ mark ≠ '-' ∧ mark ≠ '_')
    (noDot : mark ≠ '.') : mark ∉ host.text := by
  intro isIn
  rcases mem_intercalate isIn with dot | ⟨label, isLabel, inLabel⟩
  · exact noDot dot
  · exact not_mem_label host other isLabel inLabel

theorem lower_name : lower host.text = ['.'].intercalate (host.labels.map lower) :=
  lower_intercalate (by decide) _

theorem no_dots : ∀ part ∈ host.labels.map lower, '.' ∉ part := by
  intro part isIn
  obtain ⟨label, isLabel, rfl⟩ := List.mem_map.mp isIn
  exact not_mem_lower (by decide) (not_mem_label host (by decide) isLabel)

theorem splitOn_lower_name : (lower host.text).splitOn '.' = host.labels.map lower := by
  rw [lower_name]
  exact List.splitOn_intercalate '.' (no_dots host) (by simpa using host.some')

theorem PRIVATE_HOST_name :
    PRIVATE_HOST (lower host.text) = true ↔ (Host.name host).Private := by
  have some' : host.labels.map lower ≠ [] := by simpa using host.some'
  have plain : ∀ c ∈ lower host.text, RegExp.isLineEnd c.toNat = false := by
    intro c isIn
    rw [Bool.eq_false_iff]
    intro ends
    have all : ∀ n ∈ [0x0A, 0x0D, 0x2028, 0x2029], (Char.ofNat n).isAlpha = false ∧
        ((Char.ofNat n).isAlphanum = false ∧ Char.ofNat n ≠ '-' ∧ Char.ofNat n ≠ '_') ∧
        Char.ofNat n ≠ '.' := by decide
    obtain ⟨noLetter, other, noDot⟩ := all c.toNat (of_decide_eq_true ends)
    rw [Char.ofNat_toNat] at noLetter other noDot
    exact not_mem_lower noLetter (not_mem_name host other noDot) isIn
  have named : lower host.text = "localhost".toList ↔
      host.labels.map lower = ["localhost".toList] := by
    constructor
    · intro eq
      rw [← splitOn_lower_name, eq]
      decide
    · intro eq
      rw [lower_name, eq, List.intercalate_singleton]
  have under : ∀ word : List Char, '.' ∉ word →
      (endsUnder ('.' :: word) (lower host.text) = true ↔
        2 ≤ host.labels.length ∧ ∃ last ∈ host.labels.getLast?, lower last = word) := by
    intro word noDot
    rw [lower_name] at plain ⊢
    rw [endsUnder_iff (no_dots host) some' noDot plain, List.length_map, List.getLast?_map,
      Option.map_eq_some_iff]
    rfl
  have isLocal : endsUnder ".local".toList (lower host.text) = true ↔
      2 ≤ host.labels.length ∧ ∃ last ∈ host.labels.getLast?, lower last = "local".toList :=
    under "local".toList (by decide)
  have isInternal : endsUnder ".internal".toList (lower host.text) = true ↔
      2 ≤ host.labels.length ∧ ∃ last ∈ host.labels.getLast?, lower last = "internal".toList :=
    under "internal".toList (by decide)
  rw [PRIVATE_HOST, Bool.or_eq_true, Bool.or_eq_true, decide_eq_true_eq, named, isLocal,
    isInternal, or_assoc]
  simp only [Host.Private, and_or_left, exists_or]

theorem isPrivateAddress_name :
    isPrivateAddress (Host.name host).text = true ↔ (Host.name host).Private ∨
      Host.StartsReserved (host.labels.map lower) ∨
      ∃ first ∈ host.labels.head?, ∃ stem ∈ [['f', 'c'], ['f', 'd'], ['f', 'e', '8', '0']],
        stem.isPrefixOf (lower first) = true := by
  have bare : lower (unbracket host.text) = lower host.text := by
    rw [unbracket_of_plain (not_mem_name host (by decide) (by decide))
      (not_mem_name host (by decide) (by decide))]
  have noColon : ':' ∉ lower host.text :=
    not_mem_lower (by decide) (not_mem_name host (by decide) (by decide))
  have stems : (∃ stem ∈ [['f', 'c'], ['f', 'd'], ['f', 'e', '8', '0']],
      stem.isPrefixOf (lower host.text) = true) ↔ ∃ first ∈ host.labels.head?,
        ∃ stem ∈ [['f', 'c'], ['f', 'd'], ['f', 'e', '8', '0']],
          stem.isPrefixOf (lower first) = true := by
    obtain ⟨first, rest, labels⟩ := List.exists_cons_of_ne_nil host.some'
    have noDot : ∀ stem ∈ [['f', 'c'], ['f', 'd'], ['f', 'e', '8', '0']], '.' ∉ stem := by decide
    rw [lower_name, labels, List.map_cons, List.head?_cons]
    constructor
    · rintro ⟨stem, isIn, starts⟩
      rw [isPrefixOf_intercalate (noDot stem isIn)] at starts
      exact ⟨first, rfl, stem, isIn, starts⟩
    · rintro ⟨_, ⟨⟩, stem, isIn, starts⟩
      refine ⟨stem, isIn, ?_⟩
      rwa [isPrefixOf_intercalate (noDot stem isIn)]
  rw [Host.text, isPrivateAddress_of_not_mem bare noColon, PRIVATE_HOST_name, PRIVATE_IPV4_iff,
    splitOn_lower_name, stems]

end

/-! ## The spellings that the test judges rightly -/

/-- The first group of an address outside `::` decides. -/
theorem head_of_groups {x : V6} {g : Group} (first : g ∈ x.front.head?) :
    x.groups.head? = some g.value := by
  obtain ⟨front, eq⟩ := List.head?_eq_some_iff.mp first
  exact V6.head_groups_of_front eq

theorem reserved_of_head {groups : List Nat} {first : Nat} (head : groups.head? = some first)
    (positive : 0 < first) :
    Reserved6 groups ↔ first / 2 ^ 9 = 0xfc00 / 2 ^ 9 ∨ first / 2 ^ 6 = 0xfe80 / 2 ^ 6 := by
  constructor
  · rintro (rfl | rfl | ⟨_, isHead, block⟩ | ⟨high, low, rfl, _⟩)
    · exact absurd (Option.some.inj head) positive.ne
    · exact absurd (Option.some.inj head) positive.ne
    · rw [head] at isHead
      rwa [Option.some.inj isHead]
    · exact absurd (Option.some.inj head) positive.ne
  · exact fun block => Or.inr (Or.inr (Or.inl ⟨first, head, block⟩))

/-- What the three stems let through. -/
theorem value_of_stem {g : Group} (stem : g.startsWith ['f', 'c'] = true ∨
    g.startsWith ['f', 'd'] = true ∨ g.startsWith ['f', 'e', '8', '0'] = true) :
    0 < g.value ∧ (g.value < 0x1000 ∨ g.value / 2 ^ 9 = 0xfc00 / 2 ^ 9 ∨ g.value = 0xfe80) := by
  rw [← or_assoc] at stem
  rcases stem with unique | link
  · refine ⟨Group.value_pos_of_starts unique, ?_⟩
    by_cases long : g.digits.length = 4
    · exact Or.inr (Or.inl (Group.uniqueLocal_iff.mpr ⟨long, unique⟩))
    · exact Or.inl (Group.value_lt_of_short (by have := g.short; omega))
  · have value := Group.linkLocal_iff.mpr link
    exact ⟨value ▸ by decide, Or.inr (Or.inr value)⟩

/-- Of an address that starts with a zero group only the shortest spellings read private. -/
theorem shortest_of_private {x : V6} (head : x.groups.head? = some 0)
    (reads : isPrivateAddress (Host.v6 x).text = true) :
    x.bare = "::".toList ∨ x.bare = "::1".toList ∨ ∃ v, x.Mapped v := by
  rcases (isPrivateAddress_v6 x).mp reads with none' | one | ⟨g, first, stem⟩ | ⟨v, carried, _⟩
  · exact Or.inl none'
  · exact Or.inr (Or.inl one)
  · have positive := (value_of_stem stem).1
    rw [head_of_groups first, Option.some.injEq] at head
    exact absurd head positive.ne'
  · exact Or.inr (Or.inr ⟨v, carried⟩)

/-- A spelling that is judged as its address lies outside the failing kinds. -/
theorem plain_of_judged {x : V6}
    (judged : isPrivateAddress (Host.v6 x).text = true ↔ Reserved6 x.groups) :
    Host.PlainSpelling x where
  unique := by
    intro g first starts
    have stem : g.startsWith ['f', 'c'] = true ∨ g.startsWith ['f', 'd'] = true ∨
        g.startsWith ['f', 'e', '8', '0'] = true := starts.imp_right Or.inl
    have reads := (isPrivateAddress_v6 x).mpr (Or.inr (Or.inr (Or.inl ⟨g, first, stem⟩)))
    have block := (reserved_of_head (head_of_groups first) (value_of_stem stem).1).mp
      (judged.mp reads)
    by_contra short
    have small : g.value < 0x1000 := Group.value_lt_of_short (by have := g.short; omega)
    omega
  link := by
    intro first head
    by_contra between
    have positive : 0 < first := by omega
    have reads := judged.mpr ((reserved_of_head head positive).mpr (by omega))
    rcases (isPrivateAddress_v6 x).mp reads with none' | one | ⟨g, isFirst, stem⟩ | ⟨v, carried, _⟩
    · rw [V6.groups_of_unspecified none'] at head
      exact positive.ne (Option.some.inj head)
    · rw [V6.groups_of_loopback one] at head
      exact positive.ne (Option.some.inj head)
    · rw [head_of_groups isFirst] at head
      obtain rfl := Option.some.inj head
      have values := (value_of_stem stem).2
      omega
    · rw [V6.groups_of_mapped carried] at head
      exact positive.ne (Option.some.inj head)
  unspecified := by
    intro zeros
    have head : x.groups.head? = some 0 := by rw [zeros]; rfl
    rcases shortest_of_private head (judged.mpr (Or.inl zeros)) with none' | one | ⟨v, carried⟩
    · exact none'
    · rw [V6.groups_of_loopback one] at zeros
      exact absurd zeros (by decide)
    · rw [V6.groups_of_mapped carried] at zeros
      simp at zeros
  loopback := by
    intro last
    have head : x.groups.head? = some 0 := by rw [last]; rfl
    rcases shortest_of_private head (judged.mpr (Or.inr (Or.inl last))) with
      none' | one | ⟨v, carried⟩
    · rw [V6.groups_of_unspecified none'] at last
      exact absurd last (by decide)
    · exact one
    · rw [V6.groups_of_mapped carried] at last
      simp at last
  mapped := by
    intro high low groups reserved
    have head : x.groups.head? = some 0 := by rw [groups]; rfl
    rcases shortest_of_private head (judged.mpr (Or.inr (Or.inr (Or.inr
      ⟨high, low, groups, reserved⟩)))) with none' | one | ⟨v, carried⟩
    · rw [V6.groups_of_unspecified none'] at groups
      simp at groups
    · rw [V6.groups_of_loopback one] at groups
      simp at groups
    · exact ⟨carried.1, V6.length_of_mapped carried⟩

theorem judged_of_plain {x : V6} (plain : Host.PlainSpelling x) :
    isPrivateAddress (Host.v6 x).text = true ↔ Reserved6 x.groups := by
  rw [isPrivateAddress_v6]
  constructor
  · rintro (none' | one | ⟨g, first, stem⟩ | ⟨v, carried, reserved⟩)
    · exact Or.inl (V6.groups_of_unspecified none')
    · exact Or.inr (Or.inl (V6.groups_of_loopback one))
    · refine (reserved_of_head (head_of_groups first) (value_of_stem stem).1).mpr ?_
      rw [← or_assoc] at stem
      rcases stem with unique | link
      · exact Or.inl (Group.uniqueLocal_iff.mpr ⟨plain.unique g first unique, unique⟩)
      · exact Or.inr (by rw [Group.linkLocal_iff.mpr link])
    · have bound := v.bound
      have quotient : (256 * v.a + v.b) / 256 = v.a := by omega
      have remainder : (256 * v.a + v.b) % 256 = v.b := by omega
      refine Or.inr (Or.inr (Or.inr ⟨_, _, V6.groups_of_mapped carried, ?_⟩))
      rwa [quotient, remainder]
  · rintro (zeros | last | ⟨first, head, block⟩ | ⟨high, low, groups, reserved⟩)
    · exact Or.inl (plain.unspecified zeros)
    · exact Or.inr (Or.inl (plain.loopback last))
    · cases front : x.front with
      | nil =>
          rw [V6.head_groups_of_no_front front] at head
          obtain rfl := Option.some.inj head
          omega
      | cons g rest =>
          have within := plain.link first head
          rw [V6.head_groups_of_front front] at head
          obtain rfl := Option.some.inj head
          refine Or.inr (Or.inr (Or.inl ⟨g, rfl, ?_⟩))
          rw [← or_assoc]
          rcases block with unique | link
          · exact Or.inl (Group.uniqueLocal_iff.mp unique).2
          · exact Or.inr (Group.linkLocal_iff.mp (by omega))
    · obtain ⟨noFront, three⟩ := plain.mapped high low groups reserved
      obtain ⟨v, carried, highOctet, lowOctet⟩ := V6.mapped_of_groups groups noFront three
      rw [← highOctet, ← lowOctet] at reserved
      exact Or.inr (Or.inr (Or.inr ⟨v, carried, reserved⟩))

/-! ## The two checks -/

theorem assertPublicOutboundTarget_refuses {url : Url} {lane : String} {addresses : List String}
    {address : String} (isIn : address ∈ addresses) (secret : isPrivateAddress address = true) :
    ∃ refusal, assertPublicOutboundTarget url lane addresses = .error refusal := by
  rw [assertPublicOutboundTarget, if_neg (List.length_pos_of_mem isIn).ne']
  cases found : addresses.find? isPrivateAddress with
  | some offender => exact ⟨_, rfl⟩
  | none => exact absurd secret (List.find?_eq_none.mp found address isIn)

theorem refuseUnsafeOutboundUrl_accepts {parse : String → Option Url} {raw lane : String}
    {policy : OutboundPolicy} {url : Url} (parsed : parse raw = some url)
    (scheme : url.protocol = "https:" ∨ policy.allowHttp = true ∧ url.protocol = "http:")
    (free : isPrivateAddress url.hostname = false) :
    refuseUnsafeOutboundUrl parse raw lane policy = .ok url := by
  have allowed : url.protocol ∈ if policy.allowHttp then ["https:", "http:"] else ["https:"] := by
    rcases scheme with https | ⟨allowHttp, http⟩
    · split <;> simp [https]
    · simp [allowHttp, http]
  rw [refuseUnsafeOutboundUrl, parsed]
  simp only [allowed, not_true_eq_false, if_false, free, Bool.false_eq_true]
  split <;> rfl

theorem judged_of_iff {host : Host} (judged : isPrivateAddress host.text = true ↔ host.Private) :
    host.Judged where
  judged := judged
  answers := fun inside _ _ _ isIn => assertPublicOutboundTarget_refuses isIn (judged.mpr inside)
  names := by
    intro outside parse raw lane policy url parsed named scheme
    refine refuseUnsafeOutboundUrl_accepts parsed scheme ?_
    rw [named, Bool.eq_false_iff]
    exact fun reads => outside (judged.mp reads)

/-- The metadata service as a mapped address, with its zeros written out. -/
def expandedMetadata : V6 where
  front := List.replicate 5 ⟨['0'], by decide, by decide, mem_HEX_of_all (by decide)⟩ ++
    [⟨"ffff".toList, by decide, by decide, mem_HEX_of_all (by decide)⟩,
      ⟨"a9fe".toList, by decide, by decide, mem_HEX_of_all (by decide)⟩,
      ⟨"a9fe".toList, by decide, by decide, mem_HEX_of_all (by decide)⟩]
  compressed := false
  back := []
  quad := none
  bracketed := false
  fits := And.intro rfl rfl

end Everdict.Contracts
