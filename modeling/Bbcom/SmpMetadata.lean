-- The operations, groups and commands of the SMP protocol (`mcumgr-smp-metadata.ts`).
import Bbcom.Js

namespace bbcom.smp

inductive SmpRequestResponse
  | request
  | response
  | unknown
  deriving DecidableEq

def SMP_OP_NAMES : Nat → Option String
  | 0 => some "Read request"
  | 1 => some "Read response"
  | 2 => some "Write request"
  | 3 => some "Write response"
  | _ => none

def SMP_GROUP_NAMES : Nat → Option String
  | 0 => some "OS"
  | 1 => some "Image"
  | 2 => some "Statistics"
  | 3 => some "Settings"
  | 8 => some "File System"
  | 9 => some "Shell"
  | 10 => some "Enumeration"
  | 11 => some "Transport"
  | 63 => some "Zephyr"
  | _ => none

def SMP_GROUP_NAMES_ZH : Nat → Option String
  | 0 => some "操作系统"
  | 1 => some "镜像"
  | 2 => some "统计"
  | 3 => some "设置"
  | 8 => some "文件系统"
  | 9 => some "命令行"
  | 10 => some "枚举"
  | 11 => some "传输"
  | 63 => some "Zephyr"
  | _ => none

def COMMAND_NAMES : Nat → Nat → Option String
  | 0, 0 => some "Echo"
  | 0, 1 => some "Console echo control"
  | 0, 2 => some "Task statistics"
  | 0, 3 => some "Memory pool statistics"
  | 0, 4 => some "Date/time"
  | 0, 5 => some "Reset"
  | 0, 6 => some "MCUmgr parameters"
  | 0, 7 => some "Application info"
  | 0, 8 => some "Bootloader info"
  | 1, 0 => some "Image state"
  | 1, 1 => some "Image upload"
  | 1, 5 => some "Image erase"
  | 1, 6 => some "Slot info"
  | 2, 0 => some "Statistics show"
  | 2, 1 => some "Statistics list"
  | 3, 0 => some "Read/write setting"
  | 3, 1 => some "Delete setting"
  | 3, 2 => some "Commit settings"
  | 3, 3 => some "Load/save settings"
  | 8, 0 => some "Upload/download file"
  | 8, 1 => some "File status"
  | 8, 2 => some "File checksum"
  | 8, 3 => some "Checksum types"
  | 8, 4 => some "Close file"
  | 9, 0 => some "Execute command"
  | 10, 0 => some "Count groups"
  | 10, 1 => some "List groups"
  | 10, 2 => some "Fetch group ID"
  | 10, 3 => some "Group details"
  | 11, 0 => some "Connect transport"
  | 11, 1 => some "Disconnect transport"
  | 11, 2 => some "Transport status"
  | 11, 6 => some "List transports"
  | 11, 7 => some "Transport modes"
  | 11, 8 => some "Transport configuration"
  | 63, 0 => some "Erase storage"
  | _, _ => none

def COMMAND_NAMES_ZH : Nat → Nat → Option String
  | 0, 0 => some "回显"
  | 0, 1 => some "终端回显控制"
  | 0, 2 => some "任务统计"
  | 0, 3 => some "内存池统计"
  | 0, 4 => some "日期与时间"
  | 0, 5 => some "复位"
  | 0, 6 => some "MCUmgr 参数"
  | 0, 7 => some "应用信息"
  | 0, 8 => some "引导程序信息"
  | 1, 0 => some "镜像状态"
  | 1, 1 => some "镜像上传"
  | 1, 5 => some "擦除镜像"
  | 1, 6 => some "槽位信息"
  | 2, 0 => some "查看统计"
  | 2, 1 => some "统计列表"
  | 3, 0 => some "读写设置"
  | 3, 1 => some "删除设置"
  | 3, 2 => some "提交设置"
  | 3, 3 => some "加载或保存设置"
  | 8, 0 => some "上传或下载文件"
  | 8, 1 => some "文件状态"
  | 8, 2 => some "文件校验和"
  | 8, 3 => some "校验和类型"
  | 8, 4 => some "关闭文件"
  | 9, 0 => some "执行命令"
  | 10, 0 => some "组数量"
  | 10, 1 => some "组列表"
  | 10, 2 => some "获取组 ID"
  | 10, 3 => some "组详情"
  | 11, 0 => some "连接传输"
  | 11, 1 => some "断开传输"
  | 11, 2 => some "传输状态"
  | 11, 6 => some "传输列表"
  | 11, 7 => some "传输模式"
  | 11, 8 => some "传输配置"
  | 63, 0 => some "擦除存储"
  | _, _ => none

def smpGroupName (group : Nat) : String :=
  (SMP_GROUP_NAMES group).getD (if 64 ≤ group then s!"User group {group}" else s!"Group {group}")

def smpGroupNameZh (group : Nat) : String :=
  (SMP_GROUP_NAMES_ZH group).getD (if 64 ≤ group then s!"用户组 {group}" else s!"组 {group}")

def smpCommandName (group command : Nat) : String :=
  (COMMAND_NAMES group command).getD s!"Command {command}"

def smpCommandNameZh (group command : Nat) : String :=
  (COMMAND_NAMES_ZH group command).getD s!"命令 {command}"

def isKnownSmpCommand (group command : Nat) : Bool := (COMMAND_NAMES group command).isSome

def smpOpName (op : Nat) : String := (SMP_OP_NAMES op).getD s!"Operation {op}"

def smpOpNameZh : Nat → String
  | 0 => "读请求"
  | 1 => "读响应"
  | 2 => "写请求"
  | 3 => "写响应"
  | op => s!"操作 {op}"

def smpRequestResponse : Nat → SmpRequestResponse
  | 0 | 2 => .request
  | 1 | 3 => .response
  | _ => .unknown

def expectedResponseOp : Nat → Option Nat
  | 0 => some 1
  | 2 => some 3
  | _ => none

end bbcom.smp
