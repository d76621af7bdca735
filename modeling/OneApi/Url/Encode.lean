import OneApi.Text.Percent

/-! Which characters each part of an address keeps. Controls, DEL and everything outside ASCII are
always percent-encoded; each part adds the characters that would end it or be misread in it. An
encoded text holds none of the encoded characters, and encoding it again changes nothing as long
as the percent sign is kept. -/

namespace OneApi.Url

def isTabOrNewline (c : Char) : Bool := c == '\t' || c == '\n' || c == '\r'

def dropTabs (s : List Char) : List Char := s.filter fun c => !isTabOrNewline c

/-- Printable ASCII with the space. -/
def isPlain (c : Char) : Bool := ' ' ≤ c && c ≤ '~'

def keepExcept (marks : List Char) (c : Char) : Bool := isPlain c && !marks.contains c

def fragmentMarks : List Char := [' ', '"', '<', '>', '`']

def pathMarks : List Char := fragmentMarks ++ ['#', '?', '\x7b', '\x7d']

def userMarks : List Char := pathMarks ++ ['/', ':', ';', '=', '@', '[', '\\', ']', '^', '|']

def segmentMarks : List Char := pathMarks ++ ['/', '%']

def queryMarks : List Char := [' ', '"', '#', '<', '>']

def encode (marks : List Char) (s : List Char) : List Char :=
  Text.percentEncode (keepExcept marks) s

theorem dropTabs_append (s t : List Char) : dropTabs (s ++ t) = dropTabs s ++ dropTabs t :=
  List.filter_append ..

theorem encode_of_all {marks s : List Char} (h : s.all (keepExcept marks) = true) :
    encode marks s = s :=
  Text.percentEncode_of_all h

end OneApi.Url
