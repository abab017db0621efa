import MailMerge.Markup.Document

set_option autoImplicit false

namespace MailMerge.Markup

def Attribute.written (attr : Attribute) : Text :=
  ' ' :: attr.name ++ ('=' :: '"' :: attr.value) ++ ['"']

def writtenOpening (name : Text) (attributes : List Attribute) : Text :=
  '<' :: name ++ attributes.flatMap Attribute.written

mutual

/-- The written form of an element, with the element's data in front of its children. An element
that was a single tag is one again only while it is empty. -/
def Element.written : Element → Text
  | ⟨name, attributes, data, children, selfClosing⟩ =>
    if selfClosing && children.isEmpty && data.isEmpty then
      writtenOpening name attributes ++ ['/', '>']
    else
      writtenOpening name attributes ++ '>' :: data ++ Element.writtenAll children
        ++ ('<' :: '/' :: name) ++ ['>']

def Element.writtenAll : List Element → Text
  | [] => []
  | element :: rest => element.written ++ Element.writtenAll rest

end

def Document.written (document : Document) : Text :=
  document.prolog ++ document.root.written ++ document.epilogue

def Document.toBytes (document : Document) : List UInt8 := Text.bytes document.written

end MailMerge.Markup
