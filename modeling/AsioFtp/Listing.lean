-- The text of a directory listing (`create_directory_list` and `parse_metadata_time` of
-- src/ftp/base_session.cpp).
import AsioFtp.FsObjects

namespace asio_ftp.listing

open fs_objects

/-- The switch on the two digits of the month. Another pair of digits adds nothing. -/
def month (tens ones : UInt8) : Bytes :=
  if tens = 48 then
    if ones = 49 then lit "Jan "
    else if ones = 50 then lit "Feb "
    else if ones = 51 then lit "Mar "
    else if ones = 52 then lit "Apr "
    else if ones = 53 then lit "May "
    else if ones = 54 then lit "Jun "
    else if ones = 55 then lit "July "
    else if ones = 56 then lit "Aug "
    else if ones = 57 then lit "Sep "
    else []
  else if tens = 49 then
    if ones = 48 then lit "Oct "
    else if ones = 49 then lit "Nov "
    else if ones = 50 then lit "Dec "
    else []
  else []

/-- "2025-08-28 05:12:43" gives "Aug 28 05:12". -/
def parse_metadata_time (time_str : Bytes) : Bytes :=
  if time_str.length < 19 then []
  else
    month (time_str.getD 5 0) (time_str.getD 6 0) ++ ((time_str.drop 8).take 2 ++ lit " ") ++
      (time_str.drop 11).take 5

/-- The "." and ".." lines of a listing of all entries. -/
def specialEntries (owner : Bytes) : Bytes :=
  lit "drwxrwxrwx 1 " ++ owner ++ lit " " ++ owner ++ lit " 0 Jan 1 00:00 ." ++ crlf ++
    (lit "drwxrwxrwx 1 " ++ owner ++ lit " " ++ owner ++ lit " 0 Jan 1 00:00 .." ++ crlf)

/-- The line of one object. -/
def line (owner : Bytes) (object : fs_object) : Bytes :=
  (if object.is_directory then lit "drwxrwxrwx 1 " else lit "-rwxrwxrwx 1 ") ++
    (owner ++ lit " " ++ owner ++ lit " ") ++ (object.size ++ lit " ") ++
    (parse_metadata_time object.modified_time ++ lit " ") ++ (object.name ++ crlf)

def create_directory_list (objects : List fs_object) (owner : Bytes)
    (include_special_entries : Bool) : Bytes :=
  objects.foldl (fun m_directory_list object => m_directory_list ++ line owner object)
    (if include_special_entries then specialEntries owner else [])

end asio_ftp.listing
