import Mathlib.Data.List.SplitBy
import Calculator.Decorator.Builtins
import Calculator.Proofs.Function.Builtin

/-!
# Encoded texts

A text goes by way of its bytes into an alphabet of plain characters and comes back from there. In
percent encoding each byte is written by itself, in base 64 three of them are written together.
-/

namespace Calculator

namespace Text

theorem ofBytes?_toBytes (s : String) : ofBytes? (toBytes s) = some s := by
  rw [ofBytes?, toBytes, Array.toArray_toList]
  exact dif_pos s.isValidUTF8

theorem ofNat_eq_of_mod {n : Nat} {b : UInt8} (h : n % 256 = b.toNat) : UInt8.ofNat n = b :=
  UInt8.toNat_inj.mp (UInt8.toNat_ofNat'.trans h)

/-! ## Base 64 -/

namespace Base64

/-- The numbers of six bits that bytes are cut into. The last one is filled up with zeros. -/
def sextets : List UInt8 → List Nat
  | a :: b :: c :: bytes =>
    let n := (a.toNat * 256 + b.toNat) * 256 + c.toNat
    n >>> 18 :: (n >>> 12) % 64 :: (n >>> 6) % 64 :: n % 64 :: sextets bytes
  | [a, b] =>
    let n := (a.toNat * 256 + b.toNat) * 4
    [n >>> 12, (n >>> 6) % 64, n % 64]
  | [a] =>
    let n := a.toNat * 16
    [n >>> 6, n % 64]
  | [] => []

/-- How many equals signs follow the digits of so many bytes. -/
def signs (size : Nat) : Nat := (3 - size % 3) % 3

variable (bytes : List UInt8)

theorem encodeBytes_eq :
    encodeBytes bytes = (sextets bytes).map digit ++ List.replicate (signs bytes.length) '=' := by
  fun_induction encodeBytes bytes with
  | case1 a b c bytes n ih =>
    have hsigns : signs (a :: b :: c :: bytes).length = signs bytes.length := by
      simp only [signs, List.length_cons, Nat.add_assoc, Nat.add_mod_right]
    rw [ih, hsigns]
    rfl
  | case2 | case3 | case4 => rfl

theorem sextets_lt : ∀ n ∈ sextets bytes, n < 64 := by
  fun_induction sextets bytes with
  | case1 a b c bytes n ih =>
    have ha := a.toNat_lt
    have hb := b.toNat_lt
    have hc := c.toNat_lt
    simp only [List.forall_mem_cons, Nat.shiftRight_eq_div_pow]
    refine ⟨by omega, by omega, by omega, by omega, ih⟩
  | case2 a b n =>
    have ha := a.toNat_lt
    have hb := b.toNat_lt
    simp only [List.forall_mem_cons, Nat.shiftRight_eq_div_pow]
    exact ⟨by omega, by omega, by omega, List.forall_mem_nil _⟩
  | case3 a n =>
    have ha := a.toNat_lt
    simp only [List.forall_mem_cons, Nat.shiftRight_eq_div_pow]
    exact ⟨by omega, by omega, List.forall_mem_nil _⟩
  | case4 => exact List.forall_mem_nil _

/-- Six bits four times are eight bits three times. -/
theorem decodeDigits_sextets : decodeDigits (sextets bytes) = some bytes := by
  fun_induction sextets bytes with
  | case1 a b c bytes n ih =>
    have ha := a.toNat_lt
    have hb := b.toNat_lt
    have hc := c.toNat_lt
    simp only [decodeDigits, ih, Option.map_some, Nat.shiftRight_eq_div_pow]
    rw [ofNat_eq_of_mod (b := a) (by omega), ofNat_eq_of_mod (b := b) (by omega),
      ofNat_eq_of_mod (b := c) (by omega)]
  | case2 a b n =>
    have ha := a.toNat_lt
    have hb := b.toNat_lt
    simp only [decodeDigits, Nat.shiftRight_eq_div_pow]
    rw [ofNat_eq_of_mod (b := a) (by omega), ofNat_eq_of_mod (b := b) (by omega)]
  | case3 a n =>
    have ha := a.toNat_lt
    simp only [decodeDigits, Nat.shiftRight_eq_div_pow]
    rw [ofNat_eq_of_mod (b := a) (by omega)]
  | case4 => rfl

theorem length_sextets : (sextets bytes).length + signs bytes.length = (bytes.length + 2) / 3 * 4 ∧
    signs bytes.length < 3 := by
  fun_induction sextets bytes with
  | case1 a b c bytes n ih =>
    simp only [signs, List.length_cons] at ih ⊢
    omega
  | case2 | case3 | case4 => simp [signs]

theorem paddingFits_sextets :
    paddingFits (sextets bytes).length (signs bytes.length) = true := by
  obtain ⟨hsum, hfew⟩ := length_sextets bytes
  have hrest : (sextets bytes).length % 4 = 0 ∧ signs bytes.length = 0 ∨
      (sextets bytes).length % 4 = 2 ∧ signs bytes.length = 2 ∨
      (sextets bytes).length % 4 = 3 ∧ signs bytes.length = 1 := by
    omega
  rcases hrest with ⟨hrest, hsigns⟩ | ⟨hrest, hsigns⟩ | ⟨hrest, hsigns⟩ <;>
    rw [paddingFits, hrest, hsigns] <;> rfl

theorem value?_digit : ∀ n < 64, value? (digit n) = some n := by decide

theorem digit_ne_sign : ∀ n < 64, digit n ≠ '=' := by decide

theorem mapM_value?_digit {digits : List Nat} (h : ∀ n ∈ digits, n < 64) :
    (digits.map digit).mapM value? = some digits := by
  induction digits with
  | nil => rfl
  | cons n digits ih =>
    obtain ⟨hn, hdigits⟩ := List.forall_mem_cons.mp h
    simp [List.mapM_cons, value?_digit n hn, ih hdigits]

theorem decodeBytes?_encodeBytes : decodeBytes? (encodeBytes bytes) = some bytes := by
  have hlt := sextets_lt bytes
  have hdigits : ∀ c ∈ (sextets bytes).map digit, decide (c ≠ '=') = true := by
    intro c hc
    obtain ⟨n, hn, rfl⟩ := List.mem_map.mp hc
    exact decide_eq_true (digit_ne_sign n (hlt n hn))
  have htake : (encodeBytes bytes).takeWhile (· ≠ '=') = (sextets bytes).map digit := by
    rw [encodeBytes_eq, List.takeWhile_append_of_pos hdigits]
    cases signs bytes.length <;> simp [List.replicate_succ]
  have hdrop : (encodeBytes bytes).dropWhile (· ≠ '=') =
      List.replicate (signs bytes.length) '=' := by
    rw [encodeBytes_eq, List.dropWhile_append_of_pos hdigits]
    cases signs bytes.length <;> simp [List.replicate_succ]
  simp only [decodeBytes?, htake, hdrop]
  simp [paddingFits_sextets, mapM_value?_digit hlt, decodeDigits_sextets]

/-- The characters of base 64. -/
def isLegal (c : Char) : Bool := c.isAlphanum || c = '+' || c = '/' || c = '='

theorem isLegal_of_mem_encode {s : String} : ∀ c ∈ (encode s).toList, isLegal c = true := by
  have hdigit : ∀ n < 64, isLegal (digit n) = true := by decide
  intro c hc
  rw [encode, String.toList_ofList, encodeBytes_eq] at hc
  rcases List.mem_append.mp hc with hc | hc
  · obtain ⟨n, hn, rfl⟩ := List.mem_map.mp hc
    exact hdigit n (sextets_lt _ n hn)
  · rw [List.eq_of_mem_replicate hc]
    rfl

theorem length_encode (s : String) : (encode s).length = ((toBytes s).length + 2) / 3 * 4 := by
  rw [encode, String.length_ofList, encodeBytes_eq, List.length_append, List.length_map,
    List.length_replicate]
  exact (length_sextets _).1

theorem decode?_encode (s : String) : decode? (encode s) = some s := by
  simp [decode?, encode, decodeBytes?_encodeBytes, ofBytes?_toBytes]

end Base64

/-! ## Percent encoding -/

namespace Percent

/-- The characters of percent encoding. -/
def isLegal (c : Char) : Bool := c.isAlphanum || c = '_' || c = '.' || c = '-' || c = '~' || c = '%'

/-- What holds of the numbers below 256 holds of all bytes. -/
theorem forall_byte {p : UInt8 → Prop} (h : ∀ n < 256, p (UInt8.ofNat n)) (byte : UInt8) :
    p byte := by
  have hbyte := h byte.toNat byte.toNat_lt
  rwa [UInt8.ofNat_toNat] at hbyte

theorem isLegal_of_mem (byte : UInt8) :
    ∀ c ∈ encodeByte byte, isLegal c = true ∧ isAscii c = true := by
  have hall := forall_byte (p := fun byte => (encodeByte byte).all fun c => isLegal c && isAscii c)
    (by decide +kernel) byte
  exact fun c hc => Bool.and_eq_true_iff.mp (List.all_eq_true.mp hall c hc)

theorem toNat_ofNat (byte : UInt8) : (Char.ofNat byte.toNat).toNat = byte.toNat :=
  forall_byte (p := fun byte => (Char.ofNat byte.toNat).toNat = byte.toNat) (by decide +kernel) byte

theorem hexValue?_upperHexDigit : ∀ n < 16, hexValue? (upperHexDigit n) = some n := by decide

/-- Only a percent sign takes more than itself, and that is no plain character. -/
theorem decodeRun_encodeByte (byte : UInt8) (cs : List Char) :
    decodeRun (encodeByte byte ++ cs) = byte :: decodeRun cs := by
  have hbyte := byte.toNat_lt
  unfold encodeByte
  split
  case isTrue hplain =>
    have hpercent : Char.ofNat byte.toNat ≠ '%' := by
      intro heq
      simp only [isPlain, heq] at hplain
      revert hplain
      decide
    rw [List.singleton_append, decodeRun, toNat_ofNat, UInt8.ofNat_toNat]
    exact fun _ _ _ heq => absurd heq hpercent
  case isFalse =>
    rw [upperHex, List.cons_append, List.cons_append, List.cons_append, List.nil_append, decodeRun,
      hexValue?_upperHexDigit _ (by omega), hexValue?_upperHexDigit _ (by omega)]
    dsimp only
    rw [ofNat_eq_of_mod (b := byte) (by omega)]

theorem decodeRun_flatMap (bytes : List UInt8) : decodeRun (bytes.flatMap encodeByte) = bytes := by
  induction bytes with
  | nil => rw [List.flatMap_nil, decodeRun]
  | cons byte bytes ih => rw [List.flatMap_cons, decodeRun_encodeByte, ih]

/-- What is written is one run of plain characters. -/
theorem decode?_encode (s : String) : decode? (encode s) = some s := by
  have hascii : ∀ c ∈ (toBytes s).flatMap encodeByte, isAscii c = true := by
    intro c hc
    obtain ⟨byte, -, hc⟩ := List.mem_flatMap.mp hc
    exact (isLegal_of_mem byte c hc).2
  have hgroup : decodeGroup? ((toBytes s).flatMap encodeByte) = some s.toList := by
    rw [decodeGroup?, if_pos (List.all_eq_true.mpr hascii), decodeRun_flatMap, ofBytes?_toBytes]
    rfl
  unfold decode? encode
  dsimp only
  rw [String.toList_ofList]
  generalize (toBytes s).flatMap encodeByte = cs at hascii hgroup
  by_cases hempty : cs = []
  · subst hempty
    have hnil : decodeGroup? [] = some [] := by
      have hall : [].all isAscii = true := rfl
      rw [decodeGroup?, if_pos hall, decodeRun]
      exact congrArg (Option.map String.toList) (ofBytes?_toBytes "")
    obtain rfl : s = "" := String.toList_eq_nil_iff.mp (Option.some.inj (hnil.symm.trans hgroup)).symm
    rfl
  · have hchain : cs.IsChain fun a b => (isAscii a == isAscii b) = true := by
      refine List.Pairwise.isChain (List.pairwise_of_forall_mem_list fun a ha b hb => ?_)
      rw [hascii a ha, hascii b hb]
      rfl
    rw [List.splitBy_of_isChain hempty hchain]
    simp [hgroup]

theorem isLegal_of_mem_encode {s : String} : ∀ c ∈ (encode s).toList, isLegal c = true := by
  intro c hc
  rw [encode, String.toList_ofList] at hc
  obtain ⟨byte, -, hc⟩ := List.mem_flatMap.mp hc
  exact (isLegal_of_mem byte c hc).1

end Percent

end Text

/-! ## Calls -/

namespace Builtin

open Evaluation Text

variable {setting : Setting} {name description : String} (deeper : Deeper) (site : Site)
  (memory : Memory) (s : String)

theorem callName_text {f : Call → Attempt Value} (h : setting.HasBuiltin name)
    (hfunction : FunctionTable.builtin.find? name =
      some (strings name [.string "input"] description f)) :
    callName setting deeper site name [.string s] memory =
      (f ⟨site, ⟨name, [.string "input"]⟩, ⟨[("input", [.string s])], [.string s]⟩⟩, memory) :=
  callName_builtin h hfunction rfl (Signature.bind_one site name ⟨rfl, rfl⟩ rfl) deeper memory

theorem callName_mapText {f : String → String} (h : setting.HasBuiltin name)
    (hfunction : FunctionTable.builtin.find? name =
      some (strings name [.string "input"] description (mapText "input" f))) :
    callName setting deeper site name [.string s] memory = (.ok (.string (f s)), memory) :=
  callName_text deeper site memory s h hfunction

theorem callName_decoded {kind t : String} {decode? : String → Option String}
    (h : setting.HasBuiltin name)
    (hfunction : FunctionTable.builtin.find? name =
      some (strings name [.string "input"] description (decoded kind decode?)))
    (hdecode : decode? s = some t) :
    callName setting deeper site name [.string s] memory = (.ok (.string t), memory) := by
  have htext : textOf ⟨site, ⟨name, [.string "input"]⟩,
      ⟨[("input", [.string s])], [.string s]⟩⟩ "input" = .ok s := rfl
  rw [callName_text deeper site memory s h hfunction]
  simp only [decoded, htext, bind, Except.bind, hdecode]
  rfl

/--
A text that is percent encoded or written in base 64 has only plain characters, in base 64 four for
every three bytes or less. The decoder makes the text of it again.
-/
theorem encoders_undone (hurlencode : setting.HasBuiltin "urlencode")
    (hurldecode : setting.HasBuiltin "urldecode") (hatob : setting.HasBuiltin "atob")
    (hbtoa : setting.HasBuiltin "btoa") :
    callName setting deeper site "urlencode" [.string s] memory =
      (.ok (.string (Percent.encode s)), memory) ∧
    callName setting deeper site "urldecode" [.string (Percent.encode s)] memory =
      (.ok (.string s), memory) ∧
    (∀ c ∈ (Percent.encode s).toList, Percent.isLegal c) ∧
    callName setting deeper site "atob" [.string s] memory =
      (.ok (.string (Base64.encode s)), memory) ∧
    callName setting deeper site "btoa" [.string (Base64.encode s)] memory =
      (.ok (.string s), memory) ∧
    (∀ c ∈ (Base64.encode s).toList, Base64.isLegal c) ∧
    (Base64.encode s).length = ((toBytes s).length + 2) / 3 * 4 :=
  ⟨callName_mapText deeper site memory s hurlencode rfl,
    callName_decoded deeper site memory _ hurldecode rfl (Percent.decode?_encode s),
    Percent.isLegal_of_mem_encode,
    callName_mapText deeper site memory s hatob rfl,
    callName_decoded deeper site memory _ hbtoa rfl (Base64.decode?_encode s),
    Base64.isLegal_of_mem_encode, Base64.length_encode s⟩

/-- A letter of two bytes, and three signs that mean something in a URL. -/
theorem encoders_undone_signs :
    let setting : Setting := ⟨50, .builtin, .builtin, none, .still⟩
    let call name s := callName setting (fun _ => pure .none) ⟨"q", 0⟩ name [.string s] .empty
    setting.HasBuiltin "urlencode" ∧ setting.HasBuiltin "urldecode" ∧ setting.HasBuiltin "atob" ∧
      setting.HasBuiltin "btoa" ∧
      call "urlencode" "é+% " = (.ok (.string "%C3%A9%2B%25%20"), .empty) ∧
      call "urldecode" "%C3%A9%2B%25%20" = (.ok (.string "é+% "), .empty) ∧
      call "atob" "é+% " = (.ok (.string "w6krJSA="), .empty) ∧
      call "btoa" "w6krJSA=" = (.ok (.string "é+% "), .empty) := by
  intro setting call
  have hhas {name} : setting.HasBuiltin name := ⟨rfl, nofun⟩
  have hpercent : Percent.encode "é+% " = "%C3%A9%2B%25%20" := by decide +kernel
  have hbase : Base64.encode "é+% " = "w6krJSA=" := by decide +kernel
  obtain ⟨hurlencode, hurldecode, -, hatob, hbtoa, -⟩ :=
    encoders_undone (fun _ => pure .none) ⟨"q", 0⟩ .empty "é+% " hhas hhas hhas hhas
  rw [hpercent] at hurlencode hurldecode
  rw [hbase] at hatob hbtoa
  exact ⟨hhas, hhas, hhas, hhas, hurlencode, hurldecode, hatob, hbtoa⟩

end Builtin

end Calculator
