import ShaderFront.Cache.Mixin

/-!
# What cache files are written and read with

Cache files are the affair of a JSON library. It has a way of coding truth values, numbers and
texts, and derives from these how parameter values are coded, by the choices they are made of. What
is said about cache files is said of any library; `Cache.library` is the one that reads and writes
them here.
-/

namespace ShaderFront.Cache

/-- How values of a type are written as texts and read from texts. -/
structure Coding (α : Type) where
  write : α → String
  read? : String → Option α

/-- A library, as far as parameter values need it. -/
structure Library where
  bool : Coding Bool
  int : Coding Int64
  uint : Coding UInt64
  float : Coding Binary64
  text : Coding String
  value : Coding ParamValue

/-- The text of a choice that carries something: an object with one member, its name. -/
def choiceText (name payload : String) : String :=
  String.ofList ('\x7b' :: '"' :: name.toList ++ '"' :: ':' :: payload.toList ++ ['\x7d'])

/-- A type is written as a tree and read from one. -/
def Decoder.coding {α : Type} (d : Decoder α) (encode : α → Json) : Coding α :=
  ⟨fun a => (encode a).render, d.run⟩

@[simp] theorem Decoder.write_coding {α : Type} (d : Decoder α) (encode : α → Json) (a : α) :
    (d.coding encode).write a = (encode a).render := rfl

@[simp] theorem Decoder.read?_coding {α : Type} (d : Decoder α) (encode : α → Json)
    (text : String) : (d.coding encode).read? text = d.run text := rfl

/-- The library that cache files are read and written with here. -/
def library : Library where
  bool := Decoder.bool.coding .bool
  int := (Decoder.number readInt64?).coding fun n => .number (toString n.toInt).toList
  uint := (Decoder.number readUInt64?).coding fun n => .ofNat n.toNat
  float := (Decoder.number readBinary64?).coding binary64
  text := Decoder.text.coding textJson
  value := decodeValue.coding valueJson

end ShaderFront.Cache
