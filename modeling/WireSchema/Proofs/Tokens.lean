import WireSchema.Proofs.Listing

/-!
# Names and tokens

A contract names declarations by their qualified names and types by tokens.  Type names consist of
letters and digits, so that a qualified name falls apart at its last colon, whatever characters the
namespace has; and no two declarations of a graph have the same qualified name.  Hence a token can
be read back, and tells which type it stands for.
-/

namespace WireSchema

namespace Naming

theorem not_colon_of_identifier (case : NameCase) (key : String) :
    ':' ∉ (identifier case key).toList := by
  intro hmem
  rw [identifier, String.toList_ofList, identifierChars, List.mem_filter] at hmem
  exact absurd hmem.2 (by decide)

end Naming

namespace Contract

/-! ## Qualified names -/

/-- A qualified name falls apart at its last colon. -/
theorem eq_of_qualified {space other name name' : String} (hname : ':' ∉ name.toList)
    (hname' : ':' ∉ name'.toList) (heq : space ++ ":" ++ name = other ++ ":" ++ name') :
    space = other ∧ name = name' := by
  have hlists : space.toList ++ ':' :: name.toList = other.toList ++ ':' :: name'.toList := by
    have hchars := congrArg String.toList heq
    simpa using hchars
  rcases List.append_eq_append_iff.mp hlists with
    ⟨between, hother, hrest⟩ | ⟨between, hspace, hrest⟩
  · cases between with
    | nil =>
        rw [List.append_nil] at hother
        rw [List.nil_append, List.cons.injEq] at hrest
        exact ⟨String.toList_inj.mp hother.symm, String.toList_inj.mp hrest.2⟩
    | cons first more =>
        rw [List.cons_append, List.cons.injEq] at hrest
        exact absurd (by rw [hrest.2]; simp) hname
  · cases between with
    | nil =>
        rw [List.append_nil] at hspace
        rw [List.nil_append, List.cons.injEq] at hrest
        exact ⟨String.toList_inj.mp hspace, String.toList_inj.mp hrest.2.symm⟩
    | cons first more =>
        rw [List.cons_append, List.cons.injEq] at hrest
        exact absurd (by rw [hrest.2]; simp) hname'

/-- The qualified name of an enum. -/
def enumName (graph : Graph) (id : EnumId) : String :=
  (graph.enum id).space ++ ":" ++ (graph.enum id).name

/-! ## Tokens taken apart -/

/-- What the token of a type says. -/
inductive Token where
  | primitive (kind : Primitive)
  | text
  | binary (length : Nat)
  | reference (name : String)
  | array (element : Token)
  deriving DecidableEq, Repr

namespace Token

/-- Takes a token apart that refers to nothing else. -/
def readScalar? (chars : List Char) : Option Token :=
  match Primitive.ofToken? (String.ofList chars) with
  | some kind => some (.primitive kind)
  | none =>
    if chars = "string".toList then some .text
    else if "binary".toList.isPrefixOf chars && (chars.drop 6).all Char.isDigit then
      some (.binary (Nat.ofDigitChars 10 (chars.drop 6) 0))
    else none

/-- Takes a token apart. -/
def read? : List Char → Option Token
  | '@' :: name => some (.reference (String.ofList name))
  | '[' :: rest => (read? rest.dropLast).map .array
  | chars => readScalar? chars
termination_by chars => chars.length

/-- What the token of a type of a graph says. -/
def ofType (graph : Graph) : FieldType → Token
  | .primitive kind => .primitive kind
  | .text => .text
  | .binary length => .binary length
  | .enum id => .reference (enumName graph id)
  | .object id => .reference (qualifiedName graph id)
  | .array element => .array (ofType graph element)

theorem read?_of_head {chars : List Char} (hreference : chars.head? ≠ some '@')
    (harray : chars.head? ≠ some '[') : read? chars = readScalar? chars := by
  rw [read?.eq_def]
  split
  · exact absurd rfl hreference
  · exact absurd rfl harray
  · rfl

theorem readScalar?_primitive (kind : Primitive) :
    readScalar? kind.token.toList = some (.primitive kind) := by
  rw [readScalar?, String.ofList_toList, Primitive.ofToken?_token]

theorem readScalar?_binary (length : Nat) :
    readScalar? ("binary" ++ toString length).toList = some (.binary length) := by
  have hchars : ("binary" ++ toString length).toList =
      "binary".toList ++ (toString length).toList :=
    String.toList_append
  have hprimitive : Primitive.ofToken? (String.ofList ("binary" ++ toString length).toList) =
      none := by
    rw [Primitive.ofToken?, List.find?_eq_none]
    intro kind _ hkind
    rw [beq_iff_eq, String.ofList_toList] at hkind
    have htake := congrArg (fun token => token.toList.take 6) hkind
    simp only [hchars] at htake
    cases kind <;> cases htake
  have htext : "binary".toList ++ (toString length).toList ≠ "string".toList := by
    intro hsame
    cases hsame
  have hdrop : ("binary".toList ++ (toString length).toList).drop 6 = Nat.toDigits 10 length := by
    change (Nat.repr length).toList = _
    rw [Nat.repr_eq_ofList_toDigits, String.toList_ofList]
  have hdigits : (Nat.toDigits 10 length).all Char.isDigit = true :=
    List.all_eq_true.mpr fun _ hdigit => Nat.isDigit_of_mem_toDigits (by decide) (by decide) hdigit
  rw [readScalar?, hprimitive, hchars]
  dsimp only
  rw [if_neg htext, hdrop, hdigits, Nat.ofDigitChars_toDigits (by decide) (by decide)]
  simp

theorem read?_reference (name : String) :
    read? ("@" ++ name).toList = some (.reference name) := by
  have hchars : ("@" ++ name).toList = '@' :: name.toList := by simp
  rw [hchars, read?, String.ofList_toList]

theorem read?_typeToken (graph : Graph) (type : FieldType) :
    read? (typeToken graph type).toList = some (ofType graph type) := by
  induction type with
  | primitive kind =>
      rw [typeToken, read?_of_head, readScalar?_primitive, ofType]
      · cases kind <;> decide
      · cases kind <;> decide
  | text =>
      rw [typeToken, read?_of_head (by decide) (by decide), ofType]
      decide +kernel
  | binary length =>
      rw [typeToken, read?_of_head, readScalar?_binary, ofType]
      · simp
      · simp
  | enum id =>
      have htoken : typeToken graph (.enum id) = "@" ++ enumName graph id := by
        rw [typeToken, enumName, String.append_assoc, String.append_assoc, String.append_assoc]
      rw [htoken, read?_reference, ofType]
  | object id => rw [typeToken, read?_reference, ofType]
  | array element ih =>
      have hchars : (typeToken graph (.array element)).toList =
          '[' :: ((typeToken graph element).toList ++ [']']) := by
        rw [typeToken]
        simp
      rw [hchars, read?, List.dropLast_concat, ih]
      rfl

end Token
end Contract

/-! ## Names in a graph -/

/-- Every declaration that a type refers to is in the graph. -/
def Graph.Knows (graph : Graph) : FieldType → Prop
  | .enum id => id.index < graph.enums.size
  | .object id => id.index < graph.objects.size
  | .array element => graph.Knows element
  | _ => True

namespace Batch
namespace Numbers

variable {batch : Batch} {outlines : List Outline} {found : Findings}
  (hnumbers : batch.Numbers outlines)

include hnumbers

theorem exists_named {id : ObjectId} (hid : id.index < (batch.graph found).objects.size) :
    ∃ placed, batch.objects[id.index]? = some placed ∧ ':' ∉ placed.object.name.toList ∧
      Contract.qualifiedName (batch.graph found) id =
        placed.space ++ ":" ++ placed.object.name := by
  rw [size_graph] at hid
  have hplaced := List.getElem?_eq_getElem hid
  refine ⟨_, hplaced, ?_, qualifiedName_graph _ hplaced⟩
  rw [(hnumbers.sound.of_getElem? hplaced).name_eq]
  exact Naming.not_colon_of_identifier _ _

theorem exists_named_enum {id : EnumId} (hid : id.index < (batch.graph found).enums.size) :
    ∃ home ∈ batch.outlines, ∃ place declared, home.outline.enums[place]? = some declared ∧
      id = home.enumAt place ∧ ':' ∉ declared.name.toList ∧
        Contract.enumName (batch.graph found) id = home.outline.space ++ ":" ++ declared.name := by
  rcases hnumbers.exists_enum_place (Array.getElem?_eq_getElem hid) with
    ⟨home, hhome, place, declared, hdeclared, hnumber, -⟩
  have hproper := hnumbers.proper _ (hnumbers.outline_mem hhome)
  have hsame : id = home.enumAt place := congrArg EnumId.mk hnumber
  refine ⟨home, hhome, place, declared, hdeclared, hsame, ?_, ?_⟩
  · rw [hproper.enum_name_eq _ (List.mem_of_getElem? hdeclared)]
    exact Naming.not_colon_of_identifier _ _
  · rw [Contract.enumName, hsame, hnumbers.enum_graph hhome hdeclared]

/-- No two objects have the same qualified name. -/
theorem eq_of_qualifiedName {first second : ObjectId}
    (hfirst : first.index < (batch.graph found).objects.size)
    (hsecond : second.index < (batch.graph found).objects.size)
    (hname : Contract.qualifiedName (batch.graph found) first =
      Contract.qualifiedName (batch.graph found) second) : first = second := by
  rcases hnumbers.exists_named hfirst with ⟨placed, hplaced, hcolon, hqualified⟩
  rcases hnumbers.exists_named hsecond with ⟨other, hother, hcolon', hqualified'⟩
  rw [hqualified, hqualified'] at hname
  rcases Contract.eq_of_qualified hcolon hcolon' hname with ⟨hspace, hsame⟩
  apply ObjectId.eq_of_index
  exact hnumbers.eq_of_key hplaced hother (Prod.mk.injEq .. |>.mpr ⟨hspace, hsame⟩)

/-- No two enums have the same qualified name. -/
theorem eq_of_enumName {first second : EnumId}
    (hfirst : first.index < (batch.graph found).enums.size)
    (hsecond : second.index < (batch.graph found).enums.size)
    (hname : Contract.enumName (batch.graph found) first =
      Contract.enumName (batch.graph found) second) : first = second := by
  rcases hnumbers.exists_named_enum hfirst with
    ⟨home, hhome, place, declared, hdeclared, rfl, hcolon, hqualified⟩
  rcases hnumbers.exists_named_enum hsecond with
    ⟨home', hhome', place', declared', hdeclared', rfl, hcolon', hqualified'⟩
  rw [hqualified, hqualified'] at hname
  rcases Contract.eq_of_qualified hcolon hcolon' hname with ⟨hspace, hsame⟩
  have hsameHome := hnumbers.home_eq_of_space hhome hhome' hspace
  subst hsameHome
  have hproper := hnumbers.proper _ (hnumbers.outline_mem hhome)
  rw [hproper.enumPlace_eq_of_name hdeclared hdeclared' hsame]

/-- No enum has the qualified name of an object. -/
theorem enumName_ne {first : EnumId} {second : ObjectId}
    (hfirst : first.index < (batch.graph found).enums.size)
    (hsecond : second.index < (batch.graph found).objects.size) :
    Contract.enumName (batch.graph found) first ≠
      Contract.qualifiedName (batch.graph found) second := by
  intro hname
  rcases hnumbers.exists_named_enum hfirst with
    ⟨home, hhome, place, declared, hdeclared, rfl, hcolon, hqualified⟩
  rcases hnumbers.exists_named hsecond with ⟨placed, hplaced, hcolon', hqualified'⟩
  rw [hqualified, hqualified'] at hname
  rcases Contract.eq_of_qualified hcolon hcolon' hname with ⟨hspace, hsame⟩
  rcases hnumbers.sound.exists_place _ placed hplaced with ⟨hhome', place', hobject, -⟩
  rw [← hnumbers.home_eq_of_space hhome hhome' hspace] at hobject
  have hproper := hnumbers.proper _ (hnumbers.outline_mem hhome)
  exact hproper.split_names.2.2 _ (List.mem_of_getElem? hdeclared) _ (List.mem_of_getElem? hobject)
    hsame

theorem eq_of_ofType {first second : FieldType} (hfirst : (batch.graph found).Knows first)
    (hsecond : (batch.graph found).Knows second)
    (htoken : Contract.Token.ofType (batch.graph found) first =
      Contract.Token.ofType (batch.graph found) second) : first = second := by
  induction first generalizing second with
  | array element ih =>
      cases second with
      | array inner =>
          exact congrArg FieldType.array (ih hfirst hsecond (Contract.Token.array.inj htoken))
      | _ => cases htoken
  | enum id =>
      cases second with
      | enum other =>
          have hname := Contract.Token.reference.inj htoken
          exact congrArg FieldType.enum (hnumbers.eq_of_enumName hfirst hsecond hname)
      | object other =>
          have hname := Contract.Token.reference.inj htoken
          exact absurd hname (hnumbers.enumName_ne hfirst hsecond)
      | _ => cases htoken
  | object id =>
      cases second with
      | enum other =>
          have hname := Contract.Token.reference.inj htoken
          exact absurd hname.symm (hnumbers.enumName_ne hsecond hfirst)
      | object other =>
          have hname := Contract.Token.reference.inj htoken
          exact congrArg FieldType.object (hnumbers.eq_of_qualifiedName hfirst hsecond hname)
      | _ => cases htoken
  | primitive kind =>
      cases second with
      | primitive other => exact congrArg FieldType.primitive (Contract.Token.primitive.inj htoken)
      | _ => cases htoken
  | text =>
      cases second with
      | text => rfl
      | _ => cases htoken
  | binary length =>
      cases second with
      | binary other => exact congrArg FieldType.binary (Contract.Token.binary.inj htoken)
      | _ => cases htoken

/-- A token tells which type it stands for. -/
theorem eq_of_typeToken {first second : FieldType} (hfirst : (batch.graph found).Knows first)
    (hsecond : (batch.graph found).Knows second)
    (htoken : Contract.typeToken (batch.graph found) first =
      Contract.typeToken (batch.graph found) second) : first = second := by
  apply hnumbers.eq_of_ofType hfirst hsecond
  have hread := Contract.Token.read?_typeToken (batch.graph found) first
  rw [htoken, Contract.Token.read?_typeToken, Option.some.injEq] at hread
  exact hread.symm

end Numbers
end Batch
end WireSchema
