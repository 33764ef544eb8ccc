import Xrss.Zig.Bytes

namespace Xrss.Rss.Config

open Zig

def XRSS_FILE_EXT : Bytes := bytes ".xrss"
def XRSS_FILE_MAGIC : Bytes := bytes ".xrss"

def RSS_SUPPORTED_VERSION : Bytes := bytes "2.0"

def DEPTH_STEP : Nat := 4

def TAG_NAME_RSS : Bytes := bytes "rss"
def TAG_NAME_CHANNEL : Bytes := bytes "channel"
def TAG_NAME_ITEM : Bytes := bytes "item"

def TAG_NAME_NULL : Bytes := bytes "@null"
def TAG_NAME_TITLE : Bytes := bytes "title"
def TAG_NAME_LINK : Bytes := bytes "link"
def TAG_NAME_DESCRIPTION : Bytes := bytes "description"
def TAG_NAME_LANGUAGE : Bytes := bytes "language"
def TAG_NAME_PUB_DATE : Bytes := bytes "pubDate"
def TAG_NAME_LAST_BUILD_DATE : Bytes := bytes "lastBuildDate"
def TAG_NAME_GENERATOR : Bytes := bytes "generator"
def TAG_NAME_GUID : Bytes := bytes "guid"

def DISPLAY_NAME_NULL : Bytes := bytes "<Null>"
def DISPLAY_NAME_TITLE : Bytes := bytes "Title"
def DISPLAY_NAME_LINK : Bytes := bytes "Link"
def DISPLAY_NAME_DESCRIPTION : Bytes := bytes "Description"
def DISPLAY_NAME_LANGUAGE : Bytes := bytes "Language"
def DISPLAY_NAME_PUB_DATE : Bytes := bytes "Publication date"
def DISPLAY_NAME_LAST_BUILD_DATE : Bytes := bytes "Last build date"
def DISPLAY_NAME_GENERATOR : Bytes := bytes "Generator"
def DISPLAY_NAME_GUID : Bytes := bytes "GUID"

def ATTR_NAME_VERSION : Bytes := bytes "version"

end Xrss.Rss.Config
