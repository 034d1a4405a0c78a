/-!
# Characters as octets

The octets of a text and the text of octets. `decode?_encode` says that every text reads back from
its octets; `encode_of_decode?` that nothing else is accepted.
-/

namespace BasRelief.Text

def encode (cs : List Char) : List UInt8 := cs.flatMap String.utf8EncodeChar

def decode? (bs : List UInt8) : Option (List Char) :=
  bs.toByteArray.utf8Decode?.map Array.toList

/-! ### Laws -/

theorem encode_append (cs ds : List Char) : encode (cs ++ ds) = encode cs ++ encode ds := by
  simp [encode]

theorem toByteArray_encode (cs : List Char) : (encode cs).toByteArray = cs.utf8Encode := rfl

theorem decode?_encode (cs : List Char) : decode? (encode cs) = some cs := by
  simp [decode?, toByteArray_encode, List.utf8Decode?_utf8Encode]

theorem encode_of_decode? {bs : List UInt8} {cs : List Char} (h : decode? bs = some cs) :
    bs = encode cs := by
  obtain ⟨ds, hd, rfl⟩ := Option.map_eq_some_iff.1 h
  have valid : bs.toByteArray.IsValidUTF8 :=
    ByteArray.isSome_utf8Decode?_iff.1 (by rw [hd]; rfl)
  obtain ⟨m, hm⟩ := valid
  rw [hm, List.utf8Decode?_utf8Encode] at hd
  have eq : ds = m.toArray := (Option.some.inj hd).symm
  subst eq
  have h2 := congrArg (fun b => b.data.toList) hm
  simpa [List.utf8Encode, encode] using h2

end BasRelief.Text
