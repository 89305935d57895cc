import MemoryTiering.ClientConfigParser
import MemoryTiering.Lib.Fields
import MemoryTiering.Lib.Fallible

/-!
# Client sizes by their grammar

A client's sizes are to be one numeral for each tier, single spaces between them. `stoul` reads
more than numerals, and throws on what it cannot read; the parser neither looks at what `stoul` left
over nor catches what it throws. So the parser follows the grammar when it stops at a client it
refuses before `stoul` throws, and when there is nothing to refuse.
-/

set_option autoImplicit false

namespace MemoryTiering

open Fields Fallible

/-! ## The splitter -/

/-- `getline` gets fields. -/
theorem splitFrom_eq {delim : Char} {item s : Text} (sep_not : delim ∉ item) :
    splitFrom delim item s = fields delim (item ++ s) := by
  induction s generalizing item with
  | nil =>
    rw [splitFrom, List.append_nil]
    split
    · next empty => rw [empty, fields_nil]
    · next item_ne => exact (fields_of_not_mem item_ne sep_not).symm
  | cons c ss ih =>
    rw [splitFrom]
    split
    · next ends =>
      rw [ends, fields_append_cons sep_not, ih List.not_mem_nil]
      rfl
    · next goes =>
      have sep_not' : delim ∉ item ++ [c] := by simp [sep_not, Ne.symm goes]
      rw [ih sep_not', List.append_assoc]
      rfl

theorem split_eq (s : Text) (delim : Char) : split s delim = fields delim s :=
  splitFrom_eq List.not_mem_nil

/-! ## The numbers -/

/-- White space, a sign and digits, whose number fits, and after them anything but a digit. -/
inductive Readable : Text → Prop
  | mk {space sign digits rest : Text}
      (blank : ∀ c ∈ space, isspace c = true)
      (signed : sign ∈ [[], ['+'], ['-']])
      (digits_ne : digits ≠ [])
      (digit : ∀ c ∈ digits, c.isDigit = true)
      (stop : ∀ c ∈ rest.head?, c.isDigit = false)
      (fits : Nat.ofDigitChars 10 digits 0 < 2 ^ 64) :
      Readable (space ++ sign ++ digits ++ rest)

/-- A digit is neither white space nor a sign. -/
theorem isDigit_plain {c : Char} (digit : c.isDigit = true) :
    isspace c = false ∧ c ≠ '-' ∧ c ≠ '+' := by
  refine ⟨?_, fun h => by simp [h] at digit, fun h => by simp [h] at digit⟩
  simp only [Char.isDigit, Bool.and_eq_true, decide_eq_true_eq, UInt32.le_iff_toNat_le] at digit
  have space_ne : c ≠ ' ' := fun h => by simp [h] at digit
  have above : ¬ c ≤ '\r' := by
    rw [Char.le_def, UInt32.le_iff_toNat_le]
    change ¬ c.val.toNat ≤ 13
    have low : 48 ≤ c.val.toNat := digit.1
    omega
  simp [isspace, space_ne, above]

theorem takeSign_append {sign digits : Text} (signed : sign ∈ [[], ['+'], ['-']])
    (plain : ∀ c ∈ digits.head?, c ≠ '-' ∧ c ≠ '+') :
    takeSign (sign ++ digits) = (decide (sign = ['-']), digits) := by
  simp only [List.mem_cons, List.not_mem_nil, or_false] at signed
  rcases signed with rfl | rfl | rfl
  · cases digits with
    | nil => rfl
    | cons c digits =>
      obtain ⟨not_minus, not_plus⟩ := plain c rfl
      simp [takeSign, not_minus, not_plus]
  · rfl
  · rfl

theorem takeSign_spec (s : Text) : ∃ sign ∈ [[], ['+'], ['-']], s = sign ++ (takeSign s).2 := by
  fun_cases takeSign s with
  | case1 s => exact ⟨['-'], by simp, rfl⟩
  | case2 s => exact ⟨['+'], by simp, rfl⟩
  | case3 => exact ⟨[], by simp, rfl⟩

/-- What `stoul` does with the digits it comes to. -/
theorem stoul_append {space sign digits rest : Text} (blank : ∀ c ∈ space, isspace c = true)
    (signed : sign ∈ [[], ['+'], ['-']]) (digits_ne : digits ≠ [])
    (digit : ∀ c ∈ digits, c.isDigit = true) (stop : ∀ c ∈ rest.head?, c.isDigit = false)
    (fits : Nat.ofDigitChars 10 digits 0 < 2 ^ 64) :
    stoul (space ++ sign ++ digits ++ rest) =
      .ok (if sign = ['-'] then -UInt64.ofNat (Nat.ofDigitChars 10 digits 0)
        else UInt64.ofNat (Nat.ofDigitChars 10 digits 0)) := by
  obtain ⟨c, digits', rfl⟩ := List.exists_cons_of_ne_nil digits_ne
  obtain ⟨not_space, not_minus, not_plus⟩ := isDigit_plain (digit c List.mem_cons_self)
  have skipped : (space ++ sign ++ (c :: digits') ++ rest).dropWhile isspace =
      sign ++ ((c :: digits') ++ rest) := by
    rw [List.append_assoc, List.append_assoc, List.dropWhile_append_of_pos blank]
    simp only [List.mem_cons, List.not_mem_nil, or_false] at signed
    rcases signed with rfl | rfl | rfl
    · exact List.dropWhile_cons_of_neg (by simp [not_space])
    · rfl
    · rfl
  have taken : takeSign (sign ++ ((c :: digits') ++ rest)) =
      (decide (sign = ['-']), (c :: digits') ++ rest) :=
    takeSign_append signed fun _ head => Option.some.inj head ▸ ⟨not_minus, not_plus⟩
  have run : ((c :: digits') ++ rest).takeWhile Char.isDigit = c :: digits' := by
    rw [List.takeWhile_append_of_pos digit]
    cases rest with
    | nil => exact List.append_nil _
    | cons c' rest =>
      rw [List.takeWhile_cons_of_neg (by simp [stop c' rfl]), List.append_nil]
  simp only [stoul, skipped, taken, run, if_neg digits_ne, if_neg (Nat.not_le.mpr fits),
    decide_eq_true_eq]

/-- `stoul` gets a number from what is readable. -/
theorem exists_stoul_iff {field : Text} : (∃ size, stoul field = .ok size) ↔ Readable field := by
  constructor
  · rintro ⟨size, h⟩
    obtain ⟨sign, signed, rest_eq⟩ := takeSign_spec (field.dropWhile isspace)
    set signless := (takeSign (field.dropWhile isspace)).2 with signless_eq
    have whole : field = field.takeWhile isspace ++ sign ++ signless.takeWhile Char.isDigit ++
        signless.dropWhile Char.isDigit := by
      rw [List.append_assoc, List.append_assoc, List.takeWhile_append_dropWhile, ← rest_eq,
        List.takeWhile_append_dropWhile]
    unfold stoul at h
    simp only [← signless_eq] at h
    split at h
    · cases h
    · next digits_ne =>
      split at h
      · cases h
      · next fits =>
        rw [whole]
        have stop := List.head?_dropWhile_not Char.isDigit signless
        exact .mk (List.all_eq_true.mp List.all_takeWhile) signed digits_ne
          (List.all_eq_true.mp List.all_takeWhile) (fun c head => by rwa [head] at stop)
          (Nat.not_le.mp fits)
  · rintro ⟨blank, signed, digits_ne, digit, stop, fits⟩
    exact ⟨_, stoul_append blank signed digits_ne digit stop fits⟩

/-- A decimal numeral below `2 ^ 64`, and its number. -/
structure Numeral (field : Text) (size : SizeT) : Prop where
  digits_ne : field ≠ []
  digit : ∀ c ∈ field, c.isDigit = true
  value : Nat.ofDigitChars 10 field 0 = size.toNat

theorem Numeral.stoul_eq {field : Text} {size : SizeT} (numeral : Numeral field size) :
    stoul field = .ok size := by
  have fits : Nat.ofDigitChars 10 field 0 < 2 ^ 64 := numeral.value ▸ size.toNat_lt
  have reads := @stoul_append [] [] field [] nofun (by simp) numeral.digits_ne numeral.digit
    nofun fits
  rw [numeral.value, UInt64.ofNat_toNat] at reads
  simpa using reads

theorem Numeral.space_not_mem {field : Text} {size : SizeT} (numeral : Numeral field size) :
    ' ' ∉ field :=
  fun mem => nomatch numeral.digit ' ' mem

/-! ## One client -/

def AccessPattern.word : AccessPattern → Text
  | .uniform => "uniform".toList
  | .hot => "hot".toList
  | .zipfian => "zipfian".toList

theorem parsePattern_eq_some {text : Text} {pattern : AccessPattern} :
    parsePattern text = some pattern ↔ text = pattern.word := by
  constructor
  · fun_cases parsePattern text with
    | case1 h => exact fun parsed => Option.some.inj parsed ▸ h
    | case2 _ h => exact fun parsed => Option.some.inj parsed ▸ h
    | case3 _ _ h => exact fun parsed => Option.some.inj parsed ▸ h
    | case4 => exact nofun
  · rintro rfl
    cases pattern <;> rfl

theorem parsePattern_eq_none {text : Text} :
    parsePattern text = none ↔ ∀ pattern : AccessPattern, text ≠ pattern.word := by
  simp only [Option.eq_none_iff_forall_ne_some, ne_eq, parsePattern_eq_some]

/-- What the grammar has a client's pattern and sizes say. -/
structure Describes (numTiers : Nat) (client : Text × Text) (config : ClientConfig) : Prop where
  pattern : client.1 = config.pattern.word
  count : config.tierSizes.length = numTiers
  sizes : ∃ numerals, client.2 = [' '].intercalate numerals ∧
    List.Forall₂ Numeral numerals config.tierSizes

/-- What the parser takes them to say. -/
structure Takes (numTiers : Nat) (client : Text × Text) (config : ClientConfig) : Prop where
  pattern : client.1 = config.pattern.word
  count : (fields ' ' client.2).length = numTiers
  sizes : List.Forall₂ (fun field size => stoul field = .ok size) (fields ' ' client.2)
    config.tierSizes

/-- The parser returns false over a client for the number of its fields, or else for its pattern,
once it has all the numbers. -/
def Refused (numTiers : Nat) (client : Text × Text) : Prop :=
  (fields ' ' client.2).length ≠ numTiers ∨
    (∀ field ∈ fields ' ' client.2, Readable field) ∧
      ∀ pattern : AccessPattern, client.1 ≠ pattern.word

/-- There is one number to read for each tier, and the pattern is known. -/
structure Passed (numTiers : Nat) (client : Text × Text) : Prop where
  count : (fields ' ' client.2).length = numTiers
  readable : ∀ field ∈ fields ' ' client.2, Readable field
  pattern : ∃ pattern : AccessPattern, client.1 = pattern.word

section

variable {numTiers : Nat} {client : Text × Text} {config : ClientConfig}

theorem Describes.takes (described : Describes numTiers client config) :
    Takes numTiers client config := by
  obtain ⟨numerals, spelled, each⟩ := described.sizes
  have numeral := exists_forall₂_iff.mp ⟨_, each⟩
  have space_not : ∀ field ∈ numerals, ' ' ∉ field := fun field mem =>
    (numeral field mem).elim fun _ => Numeral.space_not_mem
  have last_ne : numerals.getLast? ≠ some [] := fun last =>
    (numeral [] (List.mem_of_getLast? last)).elim fun _ empty => empty.digits_ne rfl
  have cut : fields ' ' client.2 = numerals := by
    rw [spelled, fields_intercalate space_not last_ne]
  refine ⟨described.pattern, ?_, ?_⟩
  · rw [cut, each.length_eq, described.count]
  · rw [cut]
    exact each.imp fun _ _ numeral => numeral.stoul_eq

theorem exists_takes_iff : (∃ config, Takes numTiers client config) ↔ Passed numTiers client := by
  constructor
  · rintro ⟨config, taken⟩
    refine ⟨taken.count, fun field mem => ?_, config.pattern, taken.pattern⟩
    exact exists_stoul_iff.mp (exists_forall₂_iff.mp ⟨_, taken.sizes⟩ field mem)
  · rintro ⟨count, readable, pattern, named⟩
    obtain ⟨tierSizes, sizes⟩ := exists_forall₂_iff.mpr fun field mem =>
      exists_stoul_iff.mpr (readable field mem)
    exact ⟨{ pattern, tierSizes }, named, count, sizes⟩

theorem parseClientConfig_some :
    parseClientConfig numTiers client.1 client.2 = .ok (some config) ↔
      Takes numTiers client config := by
  unfold parseClientConfig
  simp only [split_eq]
  constructor
  · intro parsed
    split at parsed
    · cases parsed
    · next count =>
      obtain ⟨tierSizes, sizes, parsed⟩ := bind_eq_ok.mp parsed
      split at parsed
      · next pattern known =>
        cases parsed
        exact ⟨parsePattern_eq_some.mp known, not_not.mp count, mapM_eq_ok.mp sizes⟩
      · cases parsed
  · rintro ⟨pattern, count, sizes⟩
    rw [if_neg (not_not.mpr count), bind_eq_ok]
    refine ⟨config.tierSizes, mapM_eq_ok.mpr sizes, ?_⟩
    rw [parsePattern_eq_some.mpr pattern]

theorem parseClientConfig_none :
    parseClientConfig numTiers client.1 client.2 = .ok none ↔ Refused numTiers client := by
  unfold parseClientConfig Refused
  simp only [split_eq]
  by_cases count : (fields ' ' client.2).length = numTiers
  · rw [if_neg (not_not.mpr count), bind_eq_ok]
    simp only [ne_eq, count, not_true_eq_false, false_or, ← parsePattern_eq_none,
      ← exists_stoul_iff]
    rw [← exists_forall₂_iff]
    simp only [mapM_eq_ok]
    constructor
    · rintro ⟨tierSizes, sizes, parsed⟩
      refine ⟨⟨tierSizes, sizes⟩, ?_⟩
      split at parsed
      · cases parsed
      · assumption
    · rintro ⟨⟨tierSizes, sizes⟩, unknown⟩
      refine ⟨tierSizes, sizes, ?_⟩
      rw [unknown]
  · rw [if_pos count]
    exact ⟨fun _ => .inl count, fun _ => rfl⟩

end

/-! ## All clients -/

/-- The first client that does not pass is refused. -/
inductive RefusedFirst (numTiers : Nat) : List (Text × Text) → Prop
  | here {client : Text × Text} {rest : List (Text × Text)} :
      Refused numTiers client → RefusedFirst numTiers (client :: rest)
  | later {client : Text × Text} {rest : List (Text × Text)} :
      Passed numTiers client → RefusedFirst numTiers rest → RefusedFirst numTiers (client :: rest)

section

variable {numTiers : Nat} {clients : List (Text × Text)} {patterns tierSizes : List Text}

theorem parseEachClient_some {configs : List ClientConfig} :
    parseEachClient numTiers clients = .ok (some configs) ↔
      List.Forall₂ (Takes numTiers) clients configs := by
  induction clients generalizing configs with
  | nil =>
    rw [List.forall₂_nil_left_iff, parseEachClient]
    exact ⟨fun h => (Option.some.inj (Except.ok.inj h)).symm, fun h => h ▸ rfl⟩
  | cons client rest ih =>
    rw [parseEachClient, bind_eq_ok, List.forall₂_cons_left_iff]
    constructor
    · rintro ⟨taken, parsed, others⟩
      cases taken with
      | none => cases others
      | some config =>
        obtain ⟨others, parsedRest, h⟩ := bind_eq_ok.mp others
        obtain ⟨configs', rfl, rfl⟩ := Option.map_eq_some_iff.mp (Except.ok.inj h)
        exact ⟨config, configs', parseClientConfig_some.mp parsed, ih.mp parsedRest, rfl⟩
    · rintro ⟨config, configs', taken, others, rfl⟩
      refine ⟨some config, parseClientConfig_some.mpr taken, ?_⟩
      exact bind_eq_ok.mpr ⟨some configs', ih.mpr others, rfl⟩

theorem parseEachClient_none :
    parseEachClient numTiers clients = .ok none ↔ RefusedFirst numTiers clients := by
  induction clients with
  | nil => exact ⟨nofun, nofun⟩
  | cons client rest ih =>
    rw [parseEachClient, bind_eq_ok]
    constructor
    · rintro ⟨taken, parsed, others⟩
      cases taken with
      | none => exact .here (parseClientConfig_none.mp parsed)
      | some config =>
        obtain ⟨others, parsedRest, h⟩ := bind_eq_ok.mp others
        obtain rfl := Option.map_eq_none_iff.mp (Except.ok.inj h)
        exact .later (exists_takes_iff.mp ⟨config, parseClientConfig_some.mp parsed⟩)
          (ih.mp parsedRest)
    · intro refused
      cases refused with
      | here refused => exact ⟨none, parseClientConfig_none.mpr refused, rfl⟩
      | later passed refused =>
        obtain ⟨config, taken⟩ := exists_takes_iff.mpr passed
        refine ⟨some config, parseClientConfig_some.mpr taken, ?_⟩
        exact bind_eq_ok.mpr ⟨none, ih.mpr refused, rfl⟩

/-- Clients as the grammar has them are read as it says. -/
theorem parseEachClient_of_described {configs : List ClientConfig}
    (described : List.Forall₂ (Describes numTiers) clients configs) :
    parseEachClient numTiers clients = .ok (some configs) :=
  parseEachClient_some.mpr (described.imp fun _ _ => Describes.takes)

/-- True is returned with the clients the grammar describes and for those alone, and nothing is
thrown. -/
def ParsesByGrammar (numTiers : Nat) (patterns tierSizes : List Text) : Prop :=
  (∀ configs, parseClientConfigs numTiers patterns tierSizes = .ok (some configs) ↔
    patterns.length = tierSizes.length ∧
      List.Forall₂ (Describes numTiers) (patterns.zip tierSizes) configs) ∧
  ∀ thrown, parseClientConfigs numTiers patterns tierSizes ≠ .error thrown

/-- The parser follows the grammar over lists of different lengths, when it stops at a client it
refuses before a number is missing or too large, and when all clients are as the grammar has it. -/
theorem parses_by_grammar_iff :
    ParsesByGrammar numTiers patterns tierSizes ↔
      patterns.length ≠ tierSizes.length ∨
        RefusedFirst numTiers (patterns.zip tierSizes) ∨
        ∀ client ∈ patterns.zip tierSizes, ∃ config, Describes numTiers client config := by
  unfold ParsesByGrammar
  by_cases lengths : patterns.length = tierSizes.length
  · have same : parseClientConfigs numTiers patterns tierSizes =
        parseEachClient numTiers (patterns.zip tierSizes) := if_neg (not_not.mpr lengths)
    simp only [same, ne_eq, lengths, not_true_eq_false, false_or, true_and]
    rw [← parseEachClient_none, ← exists_forall₂_iff]
    constructor
    · rintro ⟨described, caught⟩
      cases outcome : parseEachClient numTiers (patterns.zip tierSizes) with
      | error thrown => exact absurd outcome (caught thrown)
      | ok taken =>
        cases taken with
        | none => exact .inl rfl
        | some configs => exact .inr ⟨configs, (described configs).mp outcome⟩
    · rintro (refused | ⟨configs, described⟩)
      · refine ⟨fun configs => ⟨fun h => ?_, parseEachClient_of_described⟩, fun thrown h => ?_⟩
        · cases refused.symm.trans h
        · cases refused.symm.trans h
      · have taken := parseEachClient_of_described described
        refine ⟨fun configs' => ⟨fun h => ?_, parseEachClient_of_described⟩, fun thrown h => ?_⟩
        · cases taken.symm.trans h
          exact described
        · cases taken.symm.trans h
  · have refused : parseClientConfigs numTiers patterns tierSizes = .ok none := if_pos lengths
    simp only [refused, lengths, false_and, iff_false]
    exact ⟨fun _ => .inl lengths, fun _ => ⟨fun _ => nofun, fun _ => nofun⟩⟩

end

/-- What is no number is thrown out of a parser that returns false over everything else. -/
theorem unreadable_size_thrown :
    ¬ ParsesByGrammar 2 ["uniform".toList] ["100 x".toList] := by
  intro byGrammar
  exact byGrammar.2 .invalidArgument (by decide)

/-- A sign wraps, and what follows the digits is not looked at. -/
example : parseClientConfigs 2 ["hot".toList] ["-1 5O".toList] =
    .ok (some [{ pattern := .hot, tierSizes := [18446744073709551615, 5] }]) := by decide

/-! ## What the server is given -/

section

variable {numTiers : Nat} {memSizes : List SizeT} {patterns tierSizes : List Text}
variable {server : ServerMemoryConfig} {clients : List ClientConfig}

theorem parseClientConfigs_sizes
    (parsed : parseClientConfigs numTiers patterns tierSizes = .ok (some clients)) :
    ∀ client ∈ clients, client.tierSizes.length = numTiers := by
  unfold parseClientConfigs at parsed
  split at parsed
  · cases parsed
  · have each := (parseEachClient_some.mp parsed).flip
    intro client mem
    obtain ⟨spelled, taken⟩ := exists_forall₂_iff.mp ⟨_, each⟩ client mem
    rw [← taken.sizes.length_eq, taken.count]

/-- The parser lets only accepted configurations through, however their sizes were spelled. -/
theorem parse_accepted
    (parsed : parse numTiers memSizes patterns tierSizes = .ok (some (server, clients))) :
    ∃ config : AcceptedConfig, config.numTiers = numTiers ∧ config.memSizes = memSizes ∧
      config.server = server ∧ config.clients = clients := by
  unfold parse at parsed
  split at parsed
  · cases parsed
  · next within =>
    have tiers : numTiers = 2 ∨ numTiers = 3 := by omega
    split at parsed
    · cases parsed
    · next server' parsedServer =>
      obtain ⟨taken, parsedClients, others⟩ := bind_eq_ok.mp parsed
      cases taken with
      | none => cases others
      | some clients' =>
        have sizes := parseClientConfigs_sizes parsedClients
        have checked := Except.ok.inj others
        split at checked
        · next valid =>
          cases checked
          exact ⟨⟨numTiers, memSizes, clients, server, tiers, parsedServer, sizes, valid⟩,
            rfl, rfl, rfl, rfl⟩
        · cases checked

end

end MemoryTiering
